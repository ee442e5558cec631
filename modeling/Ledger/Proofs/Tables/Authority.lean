import Ledger.Proofs.Concurrent.Outcome
import Ledger.Proofs.Tables.Changes

/-!
Who may change what. A call changes the accounts of its caller, and with an external transfer it may
pay into one more. Owners never change, so that the log tells for good who was entitled to what.
-/

namespace Ledger

/-- The user who makes a request; a single log row can be read by anybody. -/
def Request.caller? : Request → Option UserId
  | openAccount user .. | deposit user .. | close user _ | accounts user | account user _ =>
      some user
  | transfer q => some q.user
  | transactions filter => some filter.user
  | transaction _ => none

/-- What every request leaves as it is in an account, whoever makes it. -/
structure Account.Remains (row row' : Account) : Prop where
  id : row'.id = row.id
  user : row'.user = row.user
  product : row'.product = row.product
  currency : row'.currency = row.currency
  createdAt : row'.createdAt = row.createdAt
  closed : row.status = .closed → row'.status = .closed

/-- What a request may make of an account that is not its caller's. -/
inductive Account.ForeignChange (r : Request) (t t' : Tables) (row : Account) : Account → Prop
  | untouched : ForeignChange r t t' row row
  | paid {q : TransferRequest} {now : Timestamp} {amount balance : Decimal}
      (asked : r = .transfer q) (external : q.kind = .external)
      (destination : q.destination = row.id)
      (entered : t'.history row.id = t.history row.id ++ [t.newEntry now (q.entry amount)])
      (worth : amount.value = q.amount.value)
      (more : balance.value = row.balance.value + q.amount.value) :
      ForeignChange r t t' row
        { row with balance, version := row.version + 1, updatedAt := now }

/-- A change of the tables that is within the caller's authority. -/
structure Tables.Respects (r : Request) (t t' : Tables) : Prop where
  remains : ∀ id row, t.find? id = some row → ∃ row', t'.find? id = some row' ∧ row.Remains row'
  foreign : ∀ id row row', t.find? id = some row → t'.find? id = some row' →
    r.caller? ≠ some row.user → row.ForeignChange r t t' row'

/-- The user of a log row owns the accounts that it takes an owner's authority to move money from or
to. -/
structure Transaction.Entitled (t : Tables) (entry : Transaction) : Prop where
  source : entry.kind ≠ .deposit →
    ∃ id row, entry.source = some id ∧ t.find? id = some row ∧ row.user = entry.user
  destination : entry.kind ≠ .external →
    ∃ row, t.find? entry.destination = some row ∧ row.user = entry.user

variable {config : Config} {now : Timestamp} {t t' : Tables} {r : Request} {reply : Reply}
  {row row' : Account} {entry : Transaction} {entries : List Transaction}

theorem Account.Change.remains (h : row.Change now t r row' entries) : row.Remains row' := by
  cases h with
  | closed => exact ⟨rfl, rfl, rfl, rfl, rfl, fun _ => rfl⟩
  | _ => exact ⟨rfl, rfl, rfl, rfl, rfl, fun hclosed => hclosed⟩

theorem Account.Change.foreign (h : row.Change now t r row' entries)
    (hother : r.caller? ≠ some row.user)
    (hhistory : t'.history row.id = t.history row.id ++ entries) :
    row.ForeignChange r t t' row' := by
  cases h with
  | untouched => exact .untouched
  | deposited owned | closed owned => exact absurd (congrArg some owned.symm) hother
  | debited _ owned => exact absurd (congrArg some owned.symm) hother
  | @credited q _ _ destination visible _ worth more =>
      cases hkind : q.kind with
      | internal => exact absurd (congrArg some (visible hkind).symm) hother
      | external => exact .paid rfl hkind destination hhistory worth (by rw [more, worth])

theorem Transaction.Entitled.mono (h : entry.Entitled t) (hpersists : t.Persists t') :
    entry.Entitled t' := by
  constructor
  · intro hkind
    obtain ⟨id, row, hid, hrow, howner⟩ := h.source hkind
    obtain ⟨row', hrow', huser, -⟩ := hpersists id row hrow
    exact ⟨id, row', hid, hrow', huser.trans howner⟩
  · intro hkind
    obtain ⟨row, hrow, howner⟩ := h.destination hkind
    obtain ⟨row', hrow', huser, -⟩ := hpersists _ row hrow
    exact ⟨row', hrow', huser.trans howner⟩

namespace Effect

theorem respects (h : Effect config now t r reply t') (ht : t.WellFormed) : t.Respects r t' := by
  constructor
  · intro id row hrow
    obtain ⟨row', entries, hrow', -, hchange⟩ := h.change ht hrow
    exact ⟨row', hrow', hchange.remains⟩
  · intro id row row' hrow hrow' hother
    obtain ⟨found, entries, hfound, hhistory, hchange⟩ := h.change ht hrow
    rw [hrow', Option.some.injEq] at hfound
    subst hfound
    rw [← Tables.id_of_find? hrow] at hhistory
    exact hchange.foreign hother hhistory

theorem entitled_of_mem (h : Effect config now t r reply t') (hentry : entry ∈ t'.log) :
    entry ∈ t.log ∨ entry.Entitled t := by
  cases h with
  | deposited _ found owned =>
      refine (List.mem_append.mp hentry).imp_right fun hlast => ?_
      rw [List.mem_singleton.mp hlast]
      constructor
      · exact fun hkind => absurd rfl hkind
      · exact fun _ => ⟨_, found, owned⟩
  | @transferred q source destination _ _ _ _ _ from_found owned to_found visible =>
      refine (List.mem_append.mp hentry).imp_right fun hlast => ?_
      rw [List.mem_singleton.mp hlast]
      constructor
      · exact fun _ => ⟨q.source, source, rfl, from_found, owned⟩
      · intro hkind
        have hinternal : q.kind = .internal := by
          cases hq : q.kind with
          | internal => rfl
          | external => exact absurd (congrArg TransferKind.entry hq) hkind
        exact ⟨destination, to_found, visible hinternal⟩
  | _ => exact .inl hentry

theorem entitled (h : Effect config now t r reply t') (hlog : ∀ entry ∈ t.log, entry.Entitled t) :
    ∀ entry ∈ t'.log, entry.Entitled t' := by
  intro entry hentry
  apply Transaction.Entitled.mono _ h.persists
  rcases h.entitled_of_mem hentry with hold | hnew
  · exact hlog entry hold
  · exact hnew

end Effect

namespace Concurrent

variable {w w' before after : World} {actions : List Action} {k : CallId}
  {changes : List (Tables × Tables)} {stage : Stage}

/-- A call has changed nothing yet, or one of its steps has done all that its request is for. -/
theorem Stage.Tells.untouched_or_applied (h : stage.Tells config r changes) :
    Untouched changes ∨ ∃ reply, AppliedOnce config r reply changes := by
  have hmatches : ∀ result, Matches config r changes result →
      Untouched changes ∨ ∃ reply, AppliedOnce config r reply changes := by
    rintro (e | reply) hresult
    · exact .inl hresult
    · exact .inr ⟨reply, hresult⟩
  cases stage with
  | working rest =>
      cases rest with
      | done result => exact hmatches result h
      | call => exact .inl h
  | releasing rest =>
      cases rest with
      | done result => exact hmatches result h
      | call => exact False.elim h
  | announcing reply => exact .inr ⟨reply, h⟩
  | returned result =>
      cases result with
      | ok reply => exact .inr ⟨reply, h⟩
      | error e =>
          rcases Decidable.em (e.kind = .publishFailure) with hkind | hkind
          · exact .inr (h.1 hkind)
          · exact .inl (h.2 hkind)
  | expired => exact .inl h
  | dropped committed =>
      cases committed with
      | none => exact .inl h
      | some reply => exact .inr ⟨reply, h⟩

theorem World.Sound.wellFormed_of_changesOf (hw : w.Sound config true)
    (ht : w.store.tables.WellFormed) {change : Tables × Tables}
    (hchange : change ∈ w.changesOf config k actions) : change.1.WellFormed := by
  induction actions generalizing w with
  | nil => cases hchange
  | cons a rest ih =>
      rw [World.changesOf] at hchange
      cases hstep : w.step config a with
      | none =>
          rw [hstep] at hchange
          cases hchange
      | some w₁ =>
          rw [hstep] at hchange
          rcases List.mem_append.mp hchange with hnow | hlater
          · split at hnow
            · rw [List.mem_singleton.mp hnow]
              exact ht
            · cases hnow
          · apply ih (hw.step (fun _ => rfl) hstep) _ hlater
            have hrun : w.run config ([] ++ [a]) = some w₁ := World.run_concat rfl hstep
            exact hw.run_induction (P := Tables.WellFormed)
              (fun _ _ _ _ _ ht heffect => heffect.wellFormed ht) ht hrun

theorem World.Reachable.entitled (h : w.Reachable config) :
    ∀ entry ∈ w.store.tables.log, entry.Entitled w.store.tables := by
  apply h.induction (P := fun t => ∀ entry ∈ t.log, entry.Entitled t)
  · intro entry hentry
    cases hentry
  · exact fun _ _ _ _ _ hlog heffect => heffect.entitled hlog

/-- Whatever else goes on, the steps of a call change the tables once at the most, and within the
authority of its caller: somebody else's account is only ever paid into, by an external transfer.
And in every state that is reached the log tells of entitled users only. -/
theorem calls_respect_owners (hbefore : before.Reachable config)
    (hrun : (before.invoke config r).run config actions = some after) :
    (Untouched ((before.invoke config r).changesOf config before.calls.length actions) ∨
      ∃ pre t t' post,
        (before.invoke config r).changesOf config before.calls.length actions =
          pre ++ (t, t') :: post ∧
        Untouched (pre ++ post) ∧ t.Respects r t') ∧
    ∀ entry ∈ after.store.tables.log, entry.Entitled after.store.tables := by
  have hw := hbefore.sound.invoke r
  constructor
  · have hcall : (before.invoke config r).calls[before.calls.length]? =
        some ⟨r, .working (r.program config)⟩ := List.getElem?_concat_length
    obtain ⟨c, -, -, htells⟩ := hw.tells_run hrun hcall (Stage.tells_invoked config r)
    rw [List.nil_append] at htells
    apply htells.untouched_or_applied.imp_right
    rintro ⟨reply, now, t, t', pre, post, hchanges, heffect, hrest⟩
    refine ⟨pre, t, t', post, hchanges, hrest, heffect.respects ?_⟩
    have ht : before.store.tables.WellFormed := wellFormed_of_reachable hbefore
    have hmem : (t, t') ∈
        (before.invoke config r).changesOf config before.calls.length actions := by
      rw [hchanges]
      exact List.mem_append_right pre List.mem_cons_self
    exact hw.wellFormed_of_changesOf ht hmem
  · obtain ⟨earlier, hbefore⟩ := hbefore
    have hafter : after.Reachable config := by
      refine ⟨earlier ++ .invoke r :: actions, ?_⟩
      rw [World.run_append, hbefore]
      exact hrun
    exact hafter.entitled

/-- Two users open an account each, and the first of them deposits something. -/
def twoUsers : List Action :=
  ([.invoke (.openAccount 3 "savings" "usd"), .move 0 (.perform .epoch),
      .invoke (.openAccount 4 "savings" "usd"), .move 1 (.perform .epoch),
      .invoke (.deposit 3 1 (.cents 650))] : List Action) ++
    (List.replicate 6 (.move 2 (.perform .epoch)) : List Action) ++
    ([.move 2 .release] : List Action)

/-- The first user pays the second one. -/
def gift : TransferRequest :=
  ⟨3, 1, 2, .cents 150, "", .external⟩

/-- The steps of the transfer, with a look of the second user at the row in between. -/
def giftSteps : List Action :=
  (List.replicate 4 (.move 3 (.perform .epoch)) : List Action) ++
    ([.invoke (.account 4 2), .move 4 (.perform .epoch)] : List Action) ++
    (List.replicate 5 (.move 3 (.perform .epoch)) : List Action)

theorem calls_respect_owners_gift :
    ∃ (before after : World) (t t' : Tables), before.Reachable .standard ∧
      (before.invoke .standard (.transfer gift)).run .standard giftSteps = some after ∧
      after.store.tables.accounts.map (fun row => (row.user, row.balance.mantissa)) =
        [(3, 500), (4, 150)] ∧
      (t, t') ∈ (before.invoke .standard (.transfer gift)).changesOf .standard
        before.calls.length giftSteps ∧
      t.Respects (.transfer gift) t' ∧
      ∀ entry ∈ after.store.tables.log, entry.Entitled after.store.tables := by
  have hseen : ((World.start {}).run .standard twoUsers).bind (fun before =>
      ((before.invoke .standard (.transfer gift)).run .standard giftSteps).map fun after =>
        (after.store.tables.accounts.map (fun row => (row.user, row.balance.mantissa)),
          ((before.invoke .standard (.transfer gift)).changesOf .standard before.calls.length
            giftSteps).all fun change => change.2 = change.1)) =
      some ([(3, 500), (4, 150)], false) := by
    decide +kernel
  obtain ⟨before, hbefore, hrest⟩ := Option.bind_eq_some_iff.mp hseen
  obtain ⟨after, hrun, hseen⟩ := Option.map_eq_some_iff.mp hrest
  obtain ⟨hrows, hchanged⟩ := Prod.mk.inj hseen
  have hreachable : before.Reachable .standard := ⟨twoUsers, hbefore⟩
  obtain ⟨huntouched | ⟨pre, t, t', post, hchanges, -, hrespects⟩, hentitled⟩ :=
    calls_respect_owners hreachable hrun
  · obtain ⟨change, hmem, hchange⟩ := List.all_eq_false.mp hchanged
    exact absurd (decide_eq_true (huntouched change hmem)) hchange
  · refine ⟨before, after, t, t', hreachable, hrun, hrows, ?_, hrespects, hentitled⟩
    rw [hchanges]
    exact List.mem_append_right pre List.mem_cons_self

end Concurrent

end Ledger
