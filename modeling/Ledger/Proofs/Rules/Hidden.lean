import Ledger.Proofs.Rules.Basic
import Ledger.Proofs.Tables.Changes

/-!
What a user can find out about the accounts of others. An account is looked up among the user's own
before anything else is looked at, so that another user's account is refused as a missing one is.
-/

namespace Ledger

/-- Whether a user has an account. -/
def Tables.Shows (t : Tables) (user : UserId) (id : AccountId) : Prop :=
  ∃ row, t.find? id = some row ∧ row.user = user

/-- The requests of a user that look an account up among the user's own: a look at it, a deposit
into it, a close of it, a transfer from it, and an internal transfer into it. -/
inductive Request.Probes (user : UserId) (id : AccountId) : Request → Prop
  | account : Probes user id (.account user id)
  | deposit (asked : Decimal) : Probes user id (.deposit user id asked)
  | close : Probes user id (.close user id)
  | transferFrom {q : TransferRequest} (asker : q.user = user) (source : q.source = id) :
      Probes user id (.transfer q)
  | transferInto {q : TransferRequest} (asker : q.user = user) (kind : q.kind = .internal)
      (destination : q.destination = id) : Probes user id (.transfer q)

namespace Tables

variable {t t' : Tables} {user : UserId} {id : AccountId}

theorem shows_iff_mem (ht : t.WellFormed) :
    t.Shows user id ↔ ∃ row ∈ t.accountsOf user, row.id = id := by
  constructor
  · rintro ⟨row, hrow, howner⟩
    exact ⟨row, List.mem_filter.mpr ⟨mem_of_find? hrow, decide_eq_true howner⟩, id_of_find? hrow⟩
  · rintro ⟨row, hrow, rfl⟩
    obtain ⟨hmem, howner⟩ := List.mem_filter.mp hrow
    exact ⟨row, ht.find?_of_mem hmem, of_decide_eq_true howner⟩

theorem shows_congr (ht : t.WellFormed) (ht' : t'.WellFormed)
    (hagree : t.accountsOf user = t'.accountsOf user) (id : AccountId) :
    t.Shows user id ↔ t'.Shows user id := by
  rw [shows_iff_mem ht, shows_iff_mem ht', hagree]

end Tables

namespace Request

variable {t t' : Tables} {user : UserId} {id : AccountId} {q : TransferRequest}

theorem outcome_account_of_hidden (h : ¬t.Shows user id) (config : Config) (now : Timestamp) :
    (account user id).outcome config now t = (t, .error (.notFound .account id)) := by
  have hlookup := Work.exec_ask_ownedAccount (u := .closed) (t := t) now user id
    fun row => Work.succeed (Reply.account row)
  rcases hlookup with ⟨-, hfailed⟩ | ⟨row, hrow, howner, -⟩
  · exact hfailed
  · exact absurd ⟨row, hrow, howner⟩ h

theorem outcome_deposit_of_hidden (h : ¬t.Shows user id) (asked : Decimal) (config : Config)
    (now : Timestamp) :
    (deposit user id asked).outcome config now t =
      (t, .error (if asked ≤ 0 then .invalidAmount asked "must be positive"
        else .notFound .account id)) := by
  rw [outcome, program_deposit]
  split
  · rfl
  · rw [exec_reply]
    rcases Work.exec_deposit (t := t) user id asked with ⟨-, hexec⟩ | ⟨row, hrow, howner, -⟩
    · rw [hexec]
      rfl
    · exact absurd ⟨row, hrow, howner⟩ h

theorem outcome_close_of_hidden (h : ¬t.Shows user id) (config : Config) (now : Timestamp) :
    (close user id).outcome config now t = (t, .error (.notFound .account id)) := by
  rw [outcome, program_close, exec_reply]
  rcases Work.exec_close (t := t) user id with ⟨-, hexec⟩ | ⟨row, hrow, howner, -⟩
  · rw [hexec]
    rfl
  · exact absurd ⟨row, hrow, howner⟩ h

/-- How a transfer is refused that names an account which is not found. -/
def transferRefusal (q : TransferRequest) (missing : AccountId) : LedgerError :=
  if q.amount ≤ 0 then .invalidRequest "amount must be positive"
  else if q.source = q.destination then .invalidRequest "cannot transfer to the same account"
  else .notFound .account missing

theorem outcome_transfer_of_hidden_source (h : ¬t.Shows q.user q.source) (config : Config)
    (now : Timestamp) :
    (transfer q).outcome config now t = (t, .error (transferRefusal q q.source)) := by
  rw [outcome, program_transfer, transferRefusal]
  split
  · rfl
  split
  · rfl
  · rename_i hdistinct
    rw [exec_reply]
    rcases Work.exec_transfer (t := t) hdistinct with ⟨-, hexec⟩ | ⟨row, hrow, howner, -⟩
    · rw [hexec]
      rfl
    · exact absurd ⟨row, hrow, howner⟩ h

theorem outcome_transfer_of_hidden_destination (hsource : t.Shows q.user q.source)
    (hkind : q.kind = .internal) (h : ¬t.Shows q.user q.destination) (config : Config)
    (now : Timestamp) :
    (transfer q).outcome config now t = (t, .error (transferRefusal q q.destination)) := by
  rw [outcome, program_transfer, transferRefusal]
  split
  · rfl
  split
  · rfl
  · rename_i hdistinct
    rw [exec_reply]
    rcases Work.exec_transfer (t := t) hdistinct with ⟨hmissing, -⟩ |
      ⟨source, -, -, ⟨-, hexec⟩ | ⟨row, hrow, howner, -⟩⟩
    · exact absurd hsource hmissing
    · rw [hexec]
      rfl
    · exact absurd ⟨row, hrow, howner hkind⟩ h

/-- Where a user has the same accounts in two tables, a request about none of them is refused in
both for the same reason. -/
theorem Probes.exists_refusal {r : Request} (hr : r.Probes user id)
    (hshows : ∀ id, t.Shows user id ↔ t'.Shows user id) (h : ¬t.Shows user id)
    (config config' : Config) (now now' : Timestamp) :
    ∃ e, r.outcome config now t = (t, .error e) ∧
      r.outcome config' now' t' = (t', .error e) := by
  have h' : ¬t'.Shows user id := fun hthere => h ((hshows id).mpr hthere)
  cases hr with
  | account => exact ⟨_, outcome_account_of_hidden h config now, outcome_account_of_hidden h' _ _⟩
  | deposit asked =>
      exact ⟨_, outcome_deposit_of_hidden h asked config now, outcome_deposit_of_hidden h' _ _ _⟩
  | close => exact ⟨_, outcome_close_of_hidden h config now, outcome_close_of_hidden h' _ _⟩
  | transferFrom asker source =>
      subst asker source
      exact ⟨_, outcome_transfer_of_hidden_source h config now,
        outcome_transfer_of_hidden_source h' _ _⟩
  | @transferInto q asker kind destination =>
      subst asker destination
      by_cases hsource : t.Shows q.user q.source
      · have hsource' := (hshows q.source).mp hsource
        exact ⟨_, outcome_transfer_of_hidden_destination hsource kind h config now,
          outcome_transfer_of_hidden_destination hsource' kind h' _ _⟩
      · have hsource' : ¬t'.Shows q.user q.source := fun hthere =>
          hsource ((hshows q.source).mpr hthere)
        exact ⟨_, outcome_transfer_of_hidden_source hsource config now,
          outcome_transfer_of_hidden_source hsource' _ _⟩

end Request

namespace Service

theorem call_of_refused {s : Service} {t : Tables} {r : Request} {now : Timestamp}
    {e : LedgerError} (hstore : s.store = { tables := t })
    (houtcome : r.outcome s.config now t = (t, .error e)) : s.call now r = (s, .error e) := by
  rw [call_eq hstore, houtcome]
  simp only [← hstore]

/-- A user cannot tell an account of another user from a missing one: if it is not among the user's
accounts, and those are the same in another state that calls can lead to, then every request of the
user that looks it up is refused in both states, for the same reason, and leaves both as they are. -/
theorem foreign_like_missing {config config' : Config} {w w' : Concurrent.World} {s s' : Service}
    {user : UserId} {id : AccountId} {r : Request} (h : w.Reachable config)
    (h' : w'.Reachable config') (hstore : s.store = { tables := w.store.tables })
    (hstore' : s'.store = { tables := w'.store.tables })
    (hagree : w.store.tables.accountsOf user = w'.store.tables.accountsOf user)
    (hhidden : ∀ row, w.store.tables.find? id = some row → row.user ≠ user)
    (hr : r.Probes user id) (now now' : Timestamp) :
    ∃ e, s.call now r = (s, .error e) ∧ s'.call now' r = (s', .error e) := by
  have hshows := Tables.shows_congr (wellFormed_of_reachable h) (wellFormed_of_reachable h') hagree
  have hunseen : ¬w.store.tables.Shows user id :=
    fun ⟨row, hrow, howner⟩ => hhidden row hrow howner
  obtain ⟨e, houtcome, houtcome'⟩ :=
    hr.exists_refusal hshows hunseen s.config s'.config now now'
  exact ⟨e, call_of_refused hstore houtcome, call_of_refused hstore' houtcome'⟩

/-- A user opens an account and pays into it. -/
def oneUser : List Concurrent.Action :=
  ([.invoke (.openAccount 3 "savings" "usd"), .move 0 (.perform .epoch),
      .invoke (.deposit 3 1 (.cents 660))] : List Concurrent.Action) ++
    (List.replicate 6 (.move 1 (.perform .epoch)) : List Concurrent.Action) ++
    ([.move 1 .release] : List Concurrent.Action)

/-- Another user opens an account after that. -/
def joined : List Concurrent.Action :=
  oneUser ++
    ([.invoke (.openAccount 4 "savings" "usd"), .move 2 (.perform .epoch)] :
      List Concurrent.Action)

/-- The user moves all the money into an account that is another user's, or is not there. -/
theorem foreign_like_missing_second :
    let moved := Request.transfer ⟨3, 1, 2, .cents 660, "", .internal⟩
    ∃ w w', (Concurrent.World.start {}).run .standard joined = some w ∧
      (Concurrent.World.start {}).run .standard oneUser = some w' ∧
      w.store.tables.accountsOf 3 = w'.store.tables.accountsOf 3 ∧
      (w.store.tables.find? 2).map (·.user) = some 4 ∧ w'.store.tables.find? 2 = none ∧
      moved.Probes 3 2 ∧ ∃ e,
        (inline w.store.tables).call .epoch moved = (inline w.store.tables, .error e) ∧
        (inline w'.store.tables).call .epoch moved = (inline w'.store.tables, .error e) := by
  intro moved
  have hseen : ((Concurrent.World.start {}).run .standard joined).bind (fun w =>
      ((Concurrent.World.start {}).run .standard oneUser).map fun w' =>
        (decide (w.store.tables.accountsOf 3 = w'.store.tables.accountsOf 3),
          (w.store.tables.find? 2).map (·.user), w'.store.tables.find? 2)) =
      some (true, some 4, none) := by
    decide +kernel
  obtain ⟨w, hrun, hrest⟩ := Option.bind_eq_some_iff.mp hseen
  obtain ⟨w', hrun', hseen⟩ := Option.map_eq_some_iff.mp hrest
  obtain ⟨hagree, hseen⟩ := Prod.mk.inj hseen
  obtain ⟨hforeign, hmissing⟩ := Prod.mk.inj hseen
  have hagree := of_decide_eq_true hagree
  have hhidden : ∀ row, w.store.tables.find? 2 = some row → row.user ≠ 3 := by
    intro row hrow hmine
    rw [hrow, Option.map_some, hmine] at hforeign
    cases hforeign
  have hprobes : moved.Probes 3 2 := .transferInto rfl rfl rfl
  exact ⟨w, w', hrun, hrun', hagree, hforeign, hmissing, hprobes,
    foreign_like_missing ⟨_, hrun⟩ ⟨_, hrun'⟩ rfl rfl hagree hhidden hprobes .epoch .epoch⟩

end Service

end Ledger
