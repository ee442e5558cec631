import Ledger.Proofs.Decimal.Fits
import Ledger.Proofs.Rules.Basic
import Ledger.Proofs.Tables.Authority

namespace Ledger

/-- What a deposit into a row has to meet. -/
def Account.depositRequirements (row : Account) (asked : Decimal) : List Requirement :=
  [⟨Decimal.Fits (Currency.minorUnits row.currency) asked.value,
      .invalidAmount asked s!"not representable at the {row.currency} minor unit"⟩,
    ⟨row.status = .active, .accountClosed row.id⟩,
    ⟨Decimal.Fits row.balance.scale (row.balance.value + asked.value),
      .invalidAmount (asked.rescale (Currency.minorUnits row.currency)) "balance would overflow"⟩]

namespace Tables

/-- What a deposit has to meet, in the order in which it is looked at. -/
def depositRequirements (t : Tables) (user : UserId) (id : AccountId) (asked : Decimal) :
    List Requirement :=
  [⟨0 < asked.value, .invalidAmount asked "must be positive"⟩,
    ⟨∃ row, t.find? id = some row ∧ row.user = user, .notFound .account id⟩] ++
  match t.find? id with
  | some row => row.depositRequirements asked
  | none => []

/-- What closing an account has to meet. -/
def closeRequirements (t : Tables) (user : UserId) (id : AccountId) : List Requirement :=
  ⟨∃ row, t.find? id = some row ∧ row.user = user, .notFound .account id⟩ ::
  match t.find? id with
  | some row => [⟨row.status = .closed ∨ row.balance.value = 0, .nonZeroBalance id row.balance⟩]
  | none => []

/-- What a deposit does: the row is written once with the amount added, and one row that says so is
added to the log. Both are returned. -/
inductive Deposited (t : Tables) (user : UserId) (id : AccountId) (asked : Decimal)
    (now : Timestamp) : Reply → Tables → Prop
  | intro {row row' : Account} {amount balance : Decimal} {entry : Transaction} {t' : Tables}
      (found : t.find? id = some row)
      (amount_places : amount.scale = Currency.minorUnits row.currency)
      (amount_value : amount.value = asked.value)
      (balance_places : balance.scale = row.balance.scale)
      (balance_value : balance.value = row.balance.value + asked.value)
      (written : row' = { row with balance, version := row.version + 1, updatedAt := now })
      (rows : t.Rewrites t' [row'])
      (entered : entry =
        { id := t.log.length + 1
          user
          source := none
          destination := id
          amount
          description := Work.depositDescription
          kind := .deposit
          createdAt := now })
      (log : t'.log = t.log ++ [entry]) : Deposited t user id asked now (.deposited row' entry) t'

/-- What closing an account does: it is marked closed, with one write, or nothing if it is closed
already. -/
inductive Closed (t : Tables) (user : UserId) (id : AccountId) (now : Timestamp) :
    Reply → Tables → Prop
  | first {row : Account} {t' : Tables} (found : t.find? id = some row) (owned : row.user = user)
      (active : row.status = .active)
      (rows : t.Rewrites t'
        [{ row with status := .closed, version := row.version + 1, updatedAt := now }])
      (log : t'.log = t.log) : Closed t user id now (.closed true) t'
  | again {row : Account} (found : t.find? id = some row) (owned : row.user = user)
      (closed : row.status = .closed) : Closed t user id now (.closed false) t

variable {t t' : Tables} {user : UserId} {id : AccountId} {asked : Decimal} {now : Timestamp}
  {row : Account} {reply : Reply}

theorem depositRequirements_of_find? (h : t.find? id = some row) :
    t.depositRequirements user id asked =
      [⟨0 < asked.value, .invalidAmount asked "must be positive"⟩,
        ⟨∃ row, t.find? id = some row ∧ row.user = user, .notFound .account id⟩] ++
      row.depositRequirements asked := by
  rw [depositRequirements, h]

theorem closeRequirements_of_find? (h : t.find? id = some row) :
    t.closeRequirements user id =
      [⟨∃ row, t.find? id = some row ∧ row.user = user, .notFound .account id⟩,
        ⟨row.status = .closed ∨ row.balance.value = 0, .nonZeroBalance id row.balance⟩] := by
  rw [closeRequirements, h]

theorem Closed.exists_closed (h : t.Closed user id now reply t') :
    ∃ row, t'.find? id = some row ∧ row.user = user ∧ row.status = .closed := by
  cases h with
  | @first row _ found owned _ rows =>
      have hrow := List.forall_mem_singleton.mp rows.written
      rw [← id_of_find? found]
      exact ⟨_, hrow, owned, rfl⟩
  | again found owned closed => exact ⟨_, found, owned, closed⟩

end Tables

theorem Work.Unpayable.first {row : Account} {asked : Decimal} {e : LedgerError}
    (hrow : row.WellFormed) (h : Unpayable row asked e) :
    FirstUnmet (row.depositRequirements asked) e := by
  cases h with
  | places hunscaled => exact .here (Currency.scale?_eq_none_iff.mp hunscaled)
  | closed hscaled hclosed =>
      exact .later (Currency.exists_scale?_iff.mp ⟨_, hscaled⟩) (.here hclosed)
  | overflow hscaled hactive hnone =>
      obtain ⟨hplaces, hvalue⟩ := Currency.scale?_spec hscaled
      refine .later (Currency.exists_scale?_iff.mp ⟨_, hscaled⟩) (.later hactive ?_)
      rw [Currency.eq_rescale_of_scale? hscaled]
      refine .here ?_
      rw [← hvalue]
      exact (Currency.credit?_eq_none_iff (hplaces.trans hrow.places.symm)).mp hnone

namespace Effect

variable {config : Config} {now : Timestamp} {t t' : Tables} {user : UserId} {id : AccountId}
  {asked : Decimal} {reply : Reply}

theorem deposit_met (h : Effect config now t (.deposit user id asked) reply t')
    (ht : t.WellFormed) : ∀ q ∈ t.depositRequirements user id asked, q.holds := by
  cases h with
  | @deposited _ _ _ amount _ row hpos hrow howner hactive hscaled hcredit =>
      obtain ⟨hplaces, hvalue⟩ := Currency.scale?_spec hscaled
      have hscale := hplaces.trans (ht.of_find? hrow).places.symm
      have hfits := (Currency.exists_credit?_iff hscale).mp ⟨_, hcredit⟩
      rw [hvalue] at hfits
      rw [Tables.depositRequirements_of_find? hrow]
      simp only [Account.depositRequirements, List.cons_append, List.nil_append,
        List.forall_mem_cons]
      exact ⟨Decimal.pos_of_not_le_zero hpos, ⟨row, hrow, howner⟩,
        Currency.exists_scale?_iff.mp ⟨amount, hscaled⟩, hactive, hfits, fun q hq => nomatch hq⟩

theorem deposited_of_effect (h : Effect config now t (.deposit user id asked) reply t')
    (ht : t.WellFormed) : t.Deposited user id asked now reply t' := by
  cases h with
  | @deposited _ _ _ amount balance row hpos hrow _ hactive hscaled hcredit =>
      obtain ⟨hplaces, hvalue⟩ := Currency.scale?_spec hscaled
      obtain ⟨hcredited, hmore⟩ := credited (ht.of_find? hrow) hpos hactive hscaled hcredit
      rw [hvalue] at hmore
      have hself := find?_self hrow
      have hrows := Tables.rewrites_update now { row with balance } hself
      exact .intro hrow hplaces hvalue
        (hcredited.places.trans (ht.of_find? hrow).places.symm) hmore rfl (hrows.enter now _) rfl
        rfl

end Effect

namespace Request

variable {config : Config} {now : Timestamp} {t : Tables}

theorem decided_deposit (ht : t.WellFormed) (user : UserId) (id : AccountId) (asked : Decimal) :
    (deposit user id asked).Decided config now t (t.depositRequirements user id asked)
      (t.Deposited user id asked now) := by
  rw [Decided, outcome, program_deposit]
  by_cases hpos : asked ≤ 0
  · rw [if_pos hpos]
    exact .inl ⟨_, .here fun h => Decimal.not_le_zero_of_pos h hpos, rfl⟩
  have hasked := Decimal.pos_of_not_le_zero hpos
  rw [if_neg hpos, exec_reply]
  rcases Work.exec_deposit (t := t) user id asked with ⟨hmissing, hexec⟩ | ⟨row, hrow, howner,
    ⟨e, hunpayable, hexec⟩ | ⟨amount, balance, hactive, hscaled, hcredit, hexec⟩⟩
  · rw [hexec]
    exact .inl ⟨_, .later hasked (.here hmissing), rfl⟩
  · rw [hexec]
    refine .inl ⟨e, ?_, rfl⟩
    rw [Tables.depositRequirements_of_find? hrow]
    exact .later hasked (.later ⟨row, hrow, howner⟩ (hunpayable.first (ht.of_find? hrow)))
  · rw [hexec]
    have heffect : Effect config now t (.deposit user id asked) _ _ :=
      .deposited hpos hrow howner hactive hscaled hcredit
    exact .inr ⟨heffect.deposit_met ht, _, _, rfl, heffect.deposited_of_effect ht⟩

theorem decided_close (user : UserId) (id : AccountId) :
    (close user id).Decided config now t (t.closeRequirements user id) (t.Closed user id now) := by
  rw [Decided, outcome, program_close, exec_reply]
  rcases Work.exec_close (t := t) user id with ⟨hmissing, hexec⟩ | ⟨row, hrow, howner, hcases⟩
  · rw [hexec]
    exact .inl ⟨_, .here hmissing, rfl⟩
  have hzero : row.balance.isZero = true ↔ row.balance.value = 0 := by
    rw [Decimal.isZero, beq_iff_eq, Decimal.value_eq_zero]
  rw [Tables.closeRequirements_of_find? hrow]
  rcases hcases with ⟨hclosed, hexec⟩ | ⟨hopen, hmoney, hexec⟩ | ⟨hopen, hempty, hexec⟩
  · rw [hexec]
    refine .inr ⟨?_, _, _, rfl, .again hrow howner hclosed⟩
    exact List.forall_mem_cons.mpr
      ⟨⟨row, hrow, howner⟩, List.forall_mem_singleton.mpr (.inl hclosed)⟩
  · rw [hexec]
    refine .inl ⟨_, .later ⟨row, hrow, howner⟩ (.here ?_), rfl⟩
    rintro (hclosed | hnone)
    · exact hopen hclosed
    · rw [hzero.mpr hnone] at hmoney
      cases hmoney
  · rw [hexec]
    have hactive : row.status = .active := by
      cases hstatus : row.status with
      | active => rfl
      | closed => exact absurd hstatus hopen
    have hself := Effect.find?_self hrow
    have hrows := Tables.rewrites_update now { row with status := .closed } hself
    refine .inr ⟨?_, _, _, rfl, .first hrow howner hactive hrows rfl⟩
    exact List.forall_mem_cons.mpr
      ⟨⟨row, hrow, howner⟩, List.forall_mem_singleton.mpr (.inr (hzero.mp hempty))⟩

theorem outcome_close_of_closed {user : UserId} {id : AccountId} {row : Account}
    (hrow : t.find? id = some row) (howner : row.user = user) (hclosed : row.status = .closed) :
    (close user id).outcome config now t = (t, .ok (.closed false)) := by
  rw [outcome, program_close, exec_reply]
  rcases Work.exec_close (t := t) user id with ⟨hmissing, -⟩ | ⟨row', hrow', -, hcases⟩
  · exact absurd ⟨row, hrow, howner⟩ hmissing
  · rw [hrow] at hrow'
    cases hrow'
    rcases hcases with ⟨-, hexec⟩ | ⟨hopen, -⟩ | ⟨hopen, -⟩
    · rw [hexec]
      rfl
    · exact absurd hclosed hopen
    · exact absurd hclosed hopen

end Request

namespace Service

theorem call_close_of_closed {s : Service} {t : Tables} {user : UserId} {id : AccountId}
    {row : Account} (hstore : s.store = { tables := t }) (now : Timestamp)
    (hrow : t.find? id = some row) (howner : row.user = user) (hclosed : row.status = .closed) :
    s.call now (.close user id) = (s, .ok (.closed false)) := by
  rw [call_eq hstore, Request.outcome_close_of_closed hrow howner hclosed]
  simp only [report, Reply.event?, ← hstore]

/-- In every state that calls can lead to, a deposit or a close with no other call running goes
through just if it meets all requirements, and is refused for the first one that it does not meet if
not. Once a close has gone through, closing again changes nothing. -/
theorem deposit_and_close_decide {config : Config} {w : Concurrent.World} {s : Service}
    (h : w.Reachable config) (haccepts : s.Accepts)
    (hstore : s.store = { tables := w.store.tables }) (now : Timestamp) (user : UserId)
    (id : AccountId) :
    (∀ asked, s.Decides now (.deposit user id asked)
      (w.store.tables.depositRequirements user id asked)
      (w.store.tables.Deposited user id asked now)) ∧
    s.Decides now (.close user id) (w.store.tables.closeRequirements user id)
      (w.store.tables.Closed user id now) ∧
    ∀ reply later, (s.call now (.close user id)).2 = .ok reply →
      (s.call now (.close user id)).1.call later (.close user id) =
        ((s.call now (.close user id)).1, .ok (.closed false)) := by
  have ht := wellFormed_of_reachable h
  have hclose : s.Decides now (.close user id) (w.store.tables.closeRequirements user id)
      (w.store.tables.Closed user id now) :=
    (Request.decided_close user id).decides haccepts hstore
  refine ⟨?_, hclose, ?_⟩
  · intro asked
    exact (Request.decided_deposit ht user id asked).decides haccepts hstore
  · intro reply later hreply
    obtain ⟨t', hstore', hdone⟩ := hclose.carried reply hreply
    obtain ⟨row, hrow, howner, hclosed⟩ := hdone.exists_closed
    exact call_close_of_closed hstore' later hrow howner hclosed

/-- Of two accounts the first one has money, so that only the second can be closed. -/
theorem deposit_and_close_decide_twoUsers :
    ∃ w reply, (Concurrent.World.start {}).run .standard Concurrent.twoUsers = some w ∧
      let s := inline w.store.tables
      s.Accepts ∧ (s.call .epoch (.deposit 3 1 (.cents 50))).2 = .ok reply ∧
        (∃ t', (s.call .epoch (.deposit 3 1 (.cents 50))).1.store = { tables := t' } ∧
          w.store.tables.Deposited 3 1 (.cents 50) .epoch reply t') ∧
        FirstUnmet (w.store.tables.closeRequirements 3 1) (.nonZeroBalance 1 (.cents 650)) ∧
        (s.call .epoch (.close 3 1)).1 = s ∧
        (∀ q ∈ w.store.tables.closeRequirements 4 2, q.holds) ∧
        (s.call .epoch (.close 4 2)).1.call .epoch (.close 4 2) =
          ((s.call .epoch (.close 4 2)).1, .ok (.closed false)) := by
  have hseen : ((Concurrent.World.start {}).run .standard Concurrent.twoUsers).map (fun w =>
      (((inline w.store.tables).call .epoch (.deposit 3 1 (.cents 50))).2.isOk,
        ((inline w.store.tables).call .epoch (.close 3 1)).2,
        ((inline w.store.tables).call .epoch (.close 4 2)).2)) =
      some (true, .error (.nonZeroBalance 1 (.cents 650)), .ok (.closed true)) := by
    decide +kernel
  obtain ⟨w, hrun, hseen⟩ := Option.map_eq_some_iff.mp hseen
  obtain ⟨hok, hseen⟩ := Prod.mk.inj hseen
  obtain ⟨hmoney, hempty⟩ := Prod.mk.inj hseen
  have haccepts := accepts_inline w.store.tables
  obtain ⟨hdeposit, hrefused, -⟩ := deposit_and_close_decide ⟨_, hrun⟩ haccepts rfl .epoch 3 1
  obtain ⟨-, hclose, hagain⟩ := deposit_and_close_decide ⟨_, hrun⟩ haccepts rfl .epoch 4 2
  cases hreply : ((inline w.store.tables).call .epoch (.deposit 3 1 (.cents 50))).2 with
  | error e =>
      rw [hreply] at hok
      cases hok
  | ok reply =>
      exact ⟨w, reply, hrun, haccepts, hreply, (hdeposit (.cents 50)).carried reply hreply,
        (hrefused.refuses _).mp hmoney, hrefused.unchanged _ hmoney, hclose.accepts.mp ⟨_, hempty⟩,
        hagain _ .epoch hempty⟩

end Service

end Ledger
