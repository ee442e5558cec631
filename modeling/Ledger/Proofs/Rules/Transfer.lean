import Ledger.Proofs.Decimal.Fits
import Ledger.Proofs.Rules.Basic
import Ledger.Proofs.Tables.Authority

namespace Ledger

namespace TransferRequest

/-- What a transfer between two rows has to meet. -/
def rowRequirements (r : TransferRequest) (source destination : Account) : List Requirement :=
  [⟨source.currency = destination.currency,
      .invalidRequest s!"currency mismatch: {source.currency} to {destination.currency}"⟩,
    ⟨Decimal.Fits (Currency.minorUnits source.currency) r.amount.value,
      .invalidRequest
        (s!"amount {r.amount.toText} is not representable at the " ++
          s!"{source.currency} minor unit")⟩,
    ⟨source.status = .active, .accountClosed source.id⟩,
    ⟨r.amount.value ≤ source.balance.value,
      .insufficientFunds source.id source.balance
        (r.amount.rescale (Currency.minorUnits source.currency))⟩,
    ⟨destination.status = .active, .accountClosed destination.id⟩,
    ⟨Decimal.Fits destination.balance.scale (destination.balance.value + r.amount.value),
      .invalidRequest "destination balance would overflow"⟩]

/-- What a transfer has to meet, in the order in which it is looked at. -/
def requirements (r : TransferRequest) (t : Tables) : List Requirement :=
  [⟨0 < r.amount.value, .invalidRequest "amount must be positive"⟩,
    ⟨r.source ≠ r.destination, .invalidRequest "cannot transfer to the same account"⟩,
    ⟨∃ row, t.find? r.source = some row ∧ row.user = r.user, .notFound .account r.source⟩,
    ⟨∃ row, t.find? r.destination = some row ∧ (r.kind = .internal → row.user = r.user),
      .notFound .account r.destination⟩] ++
  match t.find? r.source, t.find? r.destination with
  | some source, some destination => r.rowRequirements source destination
  | _, _ => []

/-- What a transfer does: the amount leaves the source and reaches the destination, both rows are
written once, and one row that says so is added to the log. -/
inductive Moved (r : TransferRequest) (now : Timestamp) (t : Tables) : Reply → Tables → Prop
  | intro {source destination : Account} {amount debited credited : Decimal} {entry : Transaction}
      {t' : Tables}
      (from_found : t.find? r.source = some source)
      (to_found : t.find? r.destination = some destination)
      (amount_places : amount.scale = Currency.minorUnits source.currency)
      (amount_value : amount.value = r.amount.value)
      (debited_places : debited.scale = source.balance.scale)
      (debited_value : debited.value = source.balance.value - r.amount.value)
      (credited_places : credited.scale = destination.balance.scale)
      (credited_value : credited.value = destination.balance.value + r.amount.value)
      (rows : t.Rewrites t'
        [{ source with balance := debited, version := source.version + 1, updatedAt := now },
          { destination with
            balance := credited, version := destination.version + 1, updatedAt := now }])
      (entered : entry =
        { id := t.log.length + 1
          user := r.user
          source := some r.source
          destination := r.destination
          amount
          description := r.description
          kind := r.kind.entry
          createdAt := now })
      (log : t'.log = t.log ++ [entry]) : Moved r now t (.transferred entry) t'

variable {r : TransferRequest} {t : Tables} {source destination : Account}

theorem requirements_of_find? (hsource : t.find? r.source = some source)
    (hdestination : t.find? r.destination = some destination) :
    r.requirements t =
      [⟨0 < r.amount.value, .invalidRequest "amount must be positive"⟩,
        ⟨r.source ≠ r.destination, .invalidRequest "cannot transfer to the same account"⟩,
        ⟨∃ row, t.find? r.source = some row ∧ row.user = r.user, .notFound .account r.source⟩,
        ⟨∃ row, t.find? r.destination = some row ∧ (r.kind = .internal → row.user = r.user),
          .notFound .account r.destination⟩] ++ r.rowRequirements source destination := by
  rw [requirements, hsource, hdestination]

/-- The error of a requirement is not one of those that only a broken ledger could give. -/
structure Expected (e : LedgerError) : Prop where
  not_persistence : ∀ cause, e ≠ .persistence cause
  not_underflow : e ≠ .invalidRequest "source balance would underflow"

theorem expected_of_head {reason : String} (h : reason.toList.head? ≠ some 's') :
    Expected (.invalidRequest reason) where
  not_persistence := nofun
  not_underflow hsame := by
    obtain rfl := LedgerError.invalidRequest.inj hsame
    exact h rfl

theorem expected_of_mem_rowRequirements {q : Requirement}
    (h : q ∈ r.rowRequirements source destination) : Expected q.error := by
  simp only [rowRequirements, List.mem_cons, List.not_mem_nil, or_false] at h
  rcases h with rfl | rfl | rfl | rfl | rfl | rfl
  · exact expected_of_head (by simp [toString])
  · exact expected_of_head (by simp [toString])
  · exact ⟨nofun, nofun⟩
  · exact ⟨nofun, nofun⟩
  · exact ⟨nofun, nofun⟩
  · exact expected_of_head (by decide)

theorem expected_of_mem_requirements {q : Requirement} (h : q ∈ r.requirements t) :
    Expected q.error := by
  rcases List.mem_append.mp h with h | h
  · simp only [List.mem_cons, List.not_mem_nil, or_false] at h
    rcases h with rfl | rfl | rfl | rfl
    · exact expected_of_head (by decide)
    · exact expected_of_head (by decide)
    · exact ⟨nofun, nofun⟩
    · exact ⟨nofun, nofun⟩
  · split at h
    · exact expected_of_mem_rowRequirements h
    · cases h

end TransferRequest

theorem Work.Unmet.first {r : TransferRequest} {source destination : Account} {e : LedgerError}
    (hsource : source.WellFormed) (hdestination : destination.WellFormed) (hpos : ¬r.amount ≤ 0)
    (h : Unmet r source destination e) : FirstUnmet (r.rowRequirements source destination) e := by
  cases h with
  | currencies hother => exact .here hother
  | places hsame hunscaled => exact .later hsame (.here (Currency.scale?_eq_none_iff.mp hunscaled))
  | @immovable amount _ hsame hscaled hreason =>
      obtain ⟨hplaces, hvalue⟩ := Currency.scale?_spec hscaled
      obtain ⟨-, hamount⟩ := amount_spec hpos hscaled
      refine .later hsame (.later (Currency.exists_scale?_iff.mp ⟨amount, hscaled⟩) ?_)
      have hcovers : ¬source.balance < amount → r.amount.value ≤ source.balance.value := by
        rw [Decimal.lt_iff_value, not_lt, hvalue]
        exact id
      cases hreason with
      | source_closed hclosed => exact .here hclosed
      | short hactive huncovered =>
          refine .later hactive ?_
          rw [Currency.eq_rescale_of_scale? hscaled]
          refine .here ?_
          rw [not_le, ← hvalue, ← Decimal.lt_iff_value]
          exact huncovered
      | destination_closed hactive hcovered hclosed =>
          exact .later hactive (.later (hcovers hcovered) (.here hclosed))
      | underflow _ _ hcovered hnone =>
          obtain ⟨debited, hdebited⟩ :=
            Currency.exists_debit (hplaces.trans hsource.places.symm) hamount hcovered
          rw [hnone] at hdebited
          cases hdebited
      | overflow hactive hactive' hcovered _ hnone =>
          have hscale : amount.scale = destination.balance.scale := by
            rw [hplaces, hdestination.places, hsame]
          refine .later hactive (.later (hcovers hcovered) (.later hactive' (.here ?_)))
          rw [← hvalue]
          exact (Currency.credit?_eq_none_iff hscale).mp hnone

namespace Effect

variable {config : Config} {now : Timestamp} {t t' : Tables} {r : TransferRequest} {reply : Reply}

theorem transfer_met (h : Effect config now t (.transfer r) reply t') (ht : t.WellFormed) :
    ∀ q ∈ r.requirements t, q.holds := by
  cases h with
  | @transferred _ source destination amount _ _ hpos hdistinct hsource howner hdestination
      hvisible hsame hscaled hactive hactive' hcovered _ hcredit =>
      obtain ⟨hplaces, hvalue⟩ := Currency.scale?_spec hscaled
      have hscale : amount.scale = destination.balance.scale := by
        rw [hplaces, (ht.of_find? hdestination).places, hsame]
      have hfits := (Currency.exists_credit?_iff hscale).mp ⟨_, hcredit⟩
      rw [Decimal.lt_iff_value, not_lt] at hcovered
      rw [hvalue] at hcovered hfits
      rw [TransferRequest.requirements_of_find? hsource hdestination]
      simp only [TransferRequest.rowRequirements, List.cons_append, List.nil_append,
        List.forall_mem_cons]
      exact ⟨Decimal.pos_of_not_le_zero hpos, hdistinct, ⟨source, hsource, howner⟩,
        ⟨destination, hdestination, hvisible⟩, hsame,
        Currency.exists_scale?_iff.mp ⟨amount, hscaled⟩, hactive, hcovered, hactive', hfits,
        fun q hq => nomatch hq⟩

theorem moved (h : Effect config now t (.transfer r) reply t') (ht : t.WellFormed) :
    r.Moved now t reply t' := by
  cases h with
  | @transferred _ source destination amount debited credited hpos hdistinct hsource howner
      hdestination hvisible hsame hscaled hactive hactive' hcovered hdebit hcredit =>
      obtain ⟨hplaces, hvalue⟩ := Currency.scale?_spec hscaled
      obtain ⟨hdebited, hcredited, hless, hmore⟩ :=
        exchanged (ht.of_find? hsource) (ht.of_find? hdestination) hpos hsame hscaled hactive
          hactive' hcovered hdebit hcredit
      rw [hvalue] at hless hmore
      have hids : source.id ≠ destination.id := by
        rw [Tables.id_of_find? hsource, Tables.id_of_find? hdestination]
        exact hdistinct
      have hself := find?_self hsource
      have hself' := find?_self hdestination
      have hrows := Tables.rewrites_update_update now { source with balance := debited }
        { destination with balance := credited } hids hself hself'
      exact .intro hsource hdestination hplaces hvalue
        (hdebited.places.trans (ht.of_find? hsource).places.symm) hless
        (hcredited.places.trans (ht.of_find? hdestination).places.symm) hmore
        (hrows.enter now _) rfl rfl

end Effect

namespace Request

variable {config : Config} {now : Timestamp} {t : Tables}

theorem decided_transfer (ht : t.WellFormed) (r : TransferRequest) :
    (transfer r).Decided config now t (r.requirements t) (r.Moved now t) := by
  rw [Decided, outcome, program_transfer]
  by_cases hpos : r.amount ≤ 0
  · rw [if_pos hpos]
    exact .inl ⟨_, .here fun h => Decimal.not_le_zero_of_pos h hpos, rfl⟩
  have hamount := Decimal.pos_of_not_le_zero hpos
  by_cases hdistinct : r.source = r.destination
  · rw [if_neg hpos, if_pos hdistinct]
    exact .inl ⟨_, .later hamount (.here (not_not_intro hdistinct)), rfl⟩
  rw [if_neg hpos, if_neg hdistinct, exec_reply]
  rcases Work.exec_transfer (t := t) hdistinct with ⟨hmissing, hexec⟩ | ⟨source, hsource, howner,
    ⟨hmissing, hexec⟩ | ⟨destination, hdestination, hvisible, ⟨e, hunmet, hexec⟩ |
      ⟨amount, debited, credited, hsame, hscaled, hactive, hactive', hcovered, hdebit, hcredit,
        hexec⟩⟩⟩
  · rw [hexec]
    exact .inl ⟨_, .later hamount (.later hdistinct (.here hmissing)), rfl⟩
  · rw [hexec]
    exact .inl ⟨_, .later hamount (.later hdistinct (.later ⟨source, hsource, howner⟩
      (.here hmissing))), rfl⟩
  · rw [hexec]
    have hfirst := hunmet.first (ht.of_find? hsource) (ht.of_find? hdestination) hpos
    refine .inl ⟨e, ?_, rfl⟩
    rw [TransferRequest.requirements_of_find? hsource hdestination]
    exact .later hamount (.later hdistinct (.later ⟨source, hsource, howner⟩
      (.later ⟨destination, hdestination, hvisible⟩ hfirst)))
  · rw [hexec]
    have heffect : Effect config now t (.transfer r) _ _ :=
      .transferred hpos hdistinct hsource howner hdestination hvisible hsame hscaled hactive
        hactive' hcovered hdebit hcredit
    exact .inr ⟨heffect.transfer_met ht, _, _, rfl, heffect.moved ht⟩

end Request

namespace Service

/-- In every state that calls can lead to, a transfer with no other call running moves the money
just if it meets all requirements, and is refused for the first one that it does not meet if not.
Every error is that of a requirement: the debit never fails, nor does the commit. -/
theorem transfer_decides {config : Config} {w : Concurrent.World} {s : Service}
    (h : w.Reachable config) (haccepts : s.Accepts)
    (hstore : s.store = { tables := w.store.tables }) (now : Timestamp) (r : TransferRequest) :
    s.Decides now (.transfer r) (r.requirements w.store.tables) (r.Moved now w.store.tables) ∧
      (s.call now (.transfer r)).2 ≠ .error (.invalidRequest "source balance would underflow") ∧
      ∀ cause, (s.call now (.transfer r)).2 ≠ .error (.persistence cause) := by
  have ht := wellFormed_of_reachable h
  have hdecides : s.Decides now (.transfer r) (r.requirements w.store.tables)
      (r.Moved now w.store.tables) := (Request.decided_transfer ht r).decides haccepts hstore
  have hexpected : ∀ e, (s.call now (.transfer r)).2 = .error e → TransferRequest.Expected e := by
    intro e he
    obtain ⟨q, hq, rfl, -⟩ := ((hdecides.refuses e).mp he).exists_unmet
    exact TransferRequest.expected_of_mem_requirements hq
  refine ⟨hdecides, ?_, ?_⟩
  · intro he
    exact (hexpected _ he).not_underflow rfl
  · intro cause he
    exact (hexpected _ he).not_persistence cause rfl

/-- The first user gives some money away, and cannot give more than there is. -/
theorem transfer_decides_gift :
    ∃ w reply, (Concurrent.World.start {}).run .standard Concurrent.twoUsers = some w ∧
      let s := inline w.store.tables
      let tooMuch : TransferRequest := { Concurrent.gift with amount := .cents 651 }
      s.Accepts ∧ (s.call .epoch (.transfer Concurrent.gift)).2 = .ok reply ∧
        (∀ q ∈ Concurrent.gift.requirements w.store.tables, q.holds) ∧
        (∃ t', (s.call .epoch (.transfer Concurrent.gift)).1.store = { tables := t' } ∧
          Concurrent.gift.Moved .epoch w.store.tables reply t') ∧
        (s.call .epoch (.transfer tooMuch)).1 = s ∧
        FirstUnmet (tooMuch.requirements w.store.tables)
          (.insufficientFunds 1 (.cents 650) (.cents 651)) := by
  let tooMuch : TransferRequest := { Concurrent.gift with amount := .cents 651 }
  have hseen : ((Concurrent.World.start {}).run .standard Concurrent.twoUsers).map (fun w =>
      (((inline w.store.tables).call .epoch (.transfer Concurrent.gift)).2.isOk,
        ((inline w.store.tables).call .epoch (.transfer tooMuch)).2)) =
      some (true, .error (.insufficientFunds 1 (.cents 650) (.cents 651))) := by
    decide +kernel
  obtain ⟨w, hrun, hseen⟩ := Option.map_eq_some_iff.mp hseen
  obtain ⟨hok, hshort⟩ := Prod.mk.inj hseen
  have haccepts := accepts_inline w.store.tables
  obtain ⟨hgift, -, -⟩ := transfer_decides ⟨_, hrun⟩ haccepts rfl .epoch Concurrent.gift
  obtain ⟨hmuch, -, -⟩ := transfer_decides ⟨_, hrun⟩ haccepts rfl .epoch tooMuch
  cases hreply : ((inline w.store.tables).call .epoch (.transfer Concurrent.gift)).2 with
  | error e =>
      rw [hreply] at hok
      cases hok
  | ok reply =>
      exact ⟨w, reply, hrun, haccepts, hreply, hgift.accepts.mp ⟨reply, hreply⟩,
        hgift.carried reply hreply, hmuch.unchanged _ hshort, (hmuch.refuses _).mp hshort⟩

end Service

end Ledger
