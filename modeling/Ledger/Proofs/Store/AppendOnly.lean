import Ledger.Proofs.Store.Conflicts
import Ledger.Proofs.Store.Staged

/-!
What a store hands out once and never takes back: the ids of its accounts and of its log entries.
Accounts are only rewritten, entries not even that.
-/

namespace Ledger

/-- The ids of the accounts that a call has added, by its answer. -/
def StoreCall.addedAccounts : (c : StoreCall) → c.Answer → List AccountId
  | .insertAccount _, .ok row => [row.id]
  | _, _ => []

/-- The ids of the entries that a call has added, by its answer. -/
def StoreCall.addedEntries : (c : StoreCall) → c.Answer → List TransactionId
  | .insertTransaction _, .ok entry => [entry.id]
  | .commit, .ok committed => committed.transactions.map (·.id)
  | _, _ => []

namespace Tables

variable {t t' t'' : Tables} {accounts accounts' : List AccountId}
  {entries entries' : List TransactionId}

/-- Accounts and entries count from one. -/
structure Numbered (t : Tables) : Prop where
  accounts : t.accounts.map (·.id) = List.range' 1 t.accounts.length
  log : t.log.map (·.id) = List.range' 1 t.log.length

/-- The second tables have the accounts of the first, rewritten perhaps, and the entries of the
first as they are. After them come new ones with the given ids, which are the next free ones. -/
structure Grows (t t' : Tables) (accounts : List AccountId) (entries : List TransactionId) :
    Prop where
  ids : t'.accounts.map (·.id) = t.accounts.map (·.id) ++ accounts
  next_accounts : accounts = List.range' (t.accounts.length + 1) accounts.length
  log : ∃ added, t'.log = t.log ++ added ∧ added.map (·.id) = entries
  next_entries : entries = List.range' (t.log.length + 1) entries.length

theorem numbered_empty : ({} : Tables).Numbered :=
  ⟨rfl, rfl⟩

theorem range'_append_next {ids ids' : List Nat} {first count : Nat}
    (h : ids = List.range' first count) (h' : ids' = List.range' (first + count) ids'.length) :
    ids ++ ids' = List.range' first (count + ids'.length) := by
  rw [h, h', List.length_range', List.range'_append_1]

namespace Grows

theorem refl (t : Tables) : t.Grows t [] [] :=
  ⟨(List.append_nil _).symm, rfl, ⟨[], (List.append_nil _).symm, rfl⟩, rfl⟩

theorem length_accounts (h : t.Grows t' accounts entries) :
    t'.accounts.length = t.accounts.length + accounts.length := by
  have hlength := congrArg List.length h.ids
  simpa using hlength

theorem length_log (h : t.Grows t' accounts entries) :
    t'.log.length = t.log.length + entries.length := by
  obtain ⟨added, hlog, hentries⟩ := h.log
  rw [hlog, ← hentries, List.length_append, List.length_map]

theorem trans (h : t.Grows t' accounts entries) (h' : t'.Grows t'' accounts' entries') :
    t.Grows t'' (accounts ++ accounts') (entries ++ entries') := by
  obtain ⟨added, hlog, hentries⟩ := h.log
  obtain ⟨added', hlog', hentries'⟩ := h'.log
  have hnext := h'.next_accounts
  have hnext' := h'.next_entries
  rw [h.length_accounts, Nat.add_right_comm] at hnext
  rw [h.length_log, Nat.add_right_comm] at hnext'
  refine ⟨?_, ?_, ⟨added ++ added', ?_, ?_⟩, ?_⟩
  · rw [h'.ids, h.ids, List.append_assoc]
  · rw [List.length_append]
    exact range'_append_next h.next_accounts hnext
  · rw [hlog', hlog, List.append_assoc]
  · rw [List.map_append, hentries, hentries']
  · rw [List.length_append]
    exact range'_append_next h.next_entries hnext'

theorem numbered (h : t.Grows t' accounts entries) (ht : t.Numbered) : t'.Numbered := by
  obtain ⟨added, hlog, hentries⟩ := h.log
  have hnext := h.next_accounts
  have hnext' := h.next_entries
  rw [Nat.add_comm] at hnext hnext'
  constructor
  · rw [h.ids, h.length_accounts]
    exact range'_append_next ht.accounts hnext
  · rw [h.length_log, hlog, List.map_append, hentries]
    exact range'_append_next ht.log hnext'

theorem prefix_ids (h : t.Grows t' accounts entries) :
    t.accounts.map (·.id) <+: t'.accounts.map (·.id) := by
  rw [h.ids]
  exact List.prefix_append _ _

theorem prefix_log (h : t.Grows t' accounts entries) : t.log <+: t'.log := by
  obtain ⟨added, hlog, -⟩ := h.log
  rw [hlog]
  exact List.prefix_append _ _

end Grows

namespace Numbered

variable (ht : t.Numbered)

include ht

theorem nextId : t.nextId = t.accounts.length + 1 := by
  have hids := ht.accounts
  unfold Tables.nextId
  cases hlast : t.accounts.getLast? with
  | none =>
      rw [List.getLast?_eq_none_iff] at hlast
      rw [hlast]
      rfl
  | some row =>
      have hid : (t.accounts.map (·.id)).getLast? = some row.id := by
        rw [List.getLast?_map, hlast, Option.map_some]
      rw [hids, List.getLast?_range'] at hid
      split at hid
      · cases hid
      · rw [Option.some.injEq, Nat.add_sub_cancel_left] at hid
        exact congrArg (· + 1) hid.symm

theorem id_of_getElem? {index : Nat} {entry : Transaction} (h : t.log[index]? = some entry) :
    entry.id = index + 1 := by
  have hid : (t.log.map (·.id))[index]? = some entry.id := by
    rw [List.getElem?_map, h, Option.map_some]
  have hlt : index < t.log.length := (List.getElem?_eq_some_iff.mp h).1
  rw [ht.log, List.getElem?_range' hlt, Option.some.injEq, Nat.one_mul, Nat.add_comm] at hid
  exact hid.symm

end Numbered

theorem transaction_of_getElem? {index : Nat} {entry : Transaction}
    (h : t.log[index]? = some entry) : t.transaction (index + 1) = .ok entry := by
  rw [transaction, if_neg (Nat.succ_ne_zero index), Nat.add_sub_cancel, h]

theorem transaction_of_missing {id : TransactionId} (h : id = 0 ∨ t.log.length < id) :
    t.transaction id = .error (.notFound .transaction id) := by
  unfold transaction
  rcases h with rfl | hlt
  · rfl
  · rw [if_neg (Nat.ne_of_gt (Nat.zero_lt_of_lt hlt)),
      List.getElem?_eq_none (Nat.le_sub_one_of_lt hlt)]

theorem grows_replace (t : Tables) (row : Account) : t.Grows (t.replace row) [] [] where
  ids := by rw [ids_replace, List.append_nil]
  next_accounts := rfl
  log := ⟨[], (List.append_nil _).symm, rfl⟩
  next_entries := rfl

theorem grows_insert (ht : t.Numbered) (now : Timestamp) (new : NewAccount) :
    t.Grows (t.insert now new) [(t.newRow now new).id] [] where
  ids := by rw [insert, List.map_append, List.map_singleton]
  next_accounts := by
    show [t.nextId] = [t.accounts.length + 1]
    rw [ht.nextId]
  log := ⟨[], (List.append_nil _).symm, rfl⟩
  next_entries := rfl

theorem grows_enter (t : Tables) (now : Timestamp) (new : NewTransaction) :
    t.Grows (t.enter now new) [] [(t.newEntry now new).id] where
  ids := (List.append_nil _).symm
  next_accounts := rfl
  log := ⟨[t.newEntry now new], rfl, rfl⟩
  next_entries := rfl

theorem ids_newEntries (t : Tables) (now : Timestamp) (news : List NewTransaction) :
    (t.newEntries now news).map (·.id) = List.range' (t.log.length + 1) news.length := by
  apply List.ext_getElem
  · simp [newEntries]
  · intro index _ _
    simp [newEntries]

theorem grows_apply (u : UnitOfWork) (now : Timestamp) (t : Tables) :
    t.Grows (u.apply now t) [] ((u.written now t).transactions.map (·.id)) where
  ids := by rw [UnitOfWork.ids_apply, List.append_nil]
  next_accounts := rfl
  log := ⟨t.newEntries now u.entries, UnitOfWork.log_apply u now t, by
    rw [UnitOfWork.written_transactions]⟩
  next_entries := by
    rw [UnitOfWork.written_transactions, ids_newEntries, List.length_range']

theorem grows_overwrite (t : Tables) (now : Timestamp) (row : Account) :
    t.Grows (Clients.overwrite t now row) [] [] := by
  unfold Clients.overwrite
  split
  · exact grows_replace t _
  · exact .refl t

theorem grows_commit (u : UnitOfWork) (now : Timestamp) (t : Tables) :
    t.Grows (u.commit now t).2.1 [] (StoreCall.addedEntries .commit (u.commit now t).2.2) := by
  unfold UnitOfWork.commit
  split
  · exact .refl t
  · split
    · exact .refl t
    · exact grows_apply u now t

/-- A call adds to the tables what its answer says, and takes nothing away. -/
theorem grows_perform (ht : t.Numbered) (u : UnitOfWork) (now : Timestamp) (c : StoreCall) :
    t.Grows (u.perform now t c).2.1 (c.addedAccounts (u.perform now t c).2.2)
      (c.addedEntries (u.perform now t c).2.2) := by
  cases c with
  | insertAccount new => exact grows_insert ht now new
  | insertTransaction new => exact grows_enter t now new
  | commit => exact grows_commit u now t
  | saveAccount row =>
      simp only [UnitOfWork.perform]
      split
      · exact .refl t
      · exact grows_replace t _
  | lock id =>
      simp only [UnitOfWork.perform]
      split
      · exact .refl t
      · split
        · exact .refl t
        · split <;> exact .refl t
  | _ => exact .refl t

end Tables

namespace Clients

variable {s s' : Clients} {k : UnitId} {m : Move}

/-- The call that is answered by a move, with its answer. A lock is answered when its row is read,
and a direct write of a row when its lock is given up; neither adds anything. -/
def answered (s : Clients) (k : UnitId) : Move → Option ((c : StoreCall) × c.Answer)
  | .call c now => (s.store.perform k now c).map fun done => ⟨c, done.2⟩
  | .commit now => some ⟨.commit, (s.store.write k now).2⟩
  | _ => none

/-- What is answered in the course of some moves. -/
def answers : Clients → List (UnitId × Move) → List ((c : StoreCall) × c.Answer)
  | _, [] => []
  | s, (k, m) :: rest =>
      (s.answered k m).toList ++ (s.step k m).elim [] fun s' => s'.answers rest

/-- The ids of the accounts that some answers hand out. -/
def accountIds (answers : List ((c : StoreCall) × c.Answer)) : List AccountId :=
  answers.flatMap fun a => a.1.addedAccounts a.2

/-- The ids of the entries that some answers hand out. -/
def entryIds (answers : List ((c : StoreCall) × c.Answer)) : List TransactionId :=
  answers.flatMap fun a => a.1.addedEntries a.2

theorem accountIds_append (as bs : List ((c : StoreCall) × c.Answer)) :
    accountIds (as ++ bs) = accountIds as ++ accountIds bs :=
  List.flatMap_append

theorem entryIds_append (as bs : List ((c : StoreCall) × c.Answer)) :
    entryIds (as ++ bs) = entryIds as ++ entryIds bs :=
  List.flatMap_append

theorem grows_step (ht : s.store.tables.Numbered) (h : s.step k m = some s') :
    s.store.tables.Grows s'.store.tables (accountIds (s.answered k m).toList)
      (entryIds (s.answered k m).toList) := by
  unfold step at h
  split at h
  · rename_i c now _
    split at h
    · cases h
    · obtain ⟨⟨store, answer⟩, hperform, rfl⟩ := Option.map_eq_some_iff.mp h
      obtain ⟨htables, hanswer, -⟩ := Store.perform_unit hperform
      have hgrows := Tables.grows_perform ht (s.store.unit k) now c
      rw [← htables, ← hanswer] at hgrows
      show s.store.tables.Grows store.tables _ _
      simpa [answered, hperform, accountIds, entryIds] using hgrows
  · split at h
    · cases h
      exact .refl _
    · cases h
  · obtain ⟨row, -, rfl⟩ := Option.map_eq_some_iff.mp h
    exact .refl _
  · split at h
    · cases h
      exact .refl _
    · cases h
  · cases h
    exact Tables.grows_overwrite _ _ _
  · cases h
    exact .refl _
  · rename_i now _
    cases h
    have hgrows : s.store.tables.Grows (s.store.write k now).1.tables []
        (StoreCall.addedEntries .commit (s.store.write k now).2) :=
      Tables.grows_commit (s.store.unit k) now s.store.tables
    show s.store.tables.Grows (s.store.write k now).1.tables _ _
    simpa [answered, accountIds, entryIds, StoreCall.addedAccounts] using hgrows
  · cases h
    exact .refl _
  · cases h
    exact .refl _
  · cases h

theorem grows_run {moves : List (UnitId × Move)} (ht : s.store.tables.Numbered)
    (h : s.run moves = some s') :
    s.store.tables.Grows s'.store.tables (accountIds (s.answers moves))
      (entryIds (s.answers moves)) := by
  induction moves generalizing s with
  | nil =>
      cases h
      exact .refl _
  | cons move rest ih =>
      obtain ⟨k, m⟩ := move
      obtain ⟨s₁, hstep, hrun⟩ := run_cons h
      have hgrows := grows_step ht hstep
      rw [answers, hstep, Option.elim_some, accountIds_append, entryIds_append]
      exact hgrows.trans (ih (hgrows.numbered ht) hrun)

/-- A store takes no id back and hands none out twice. -/
structure AppendOnly (s : Clients) (answers : List ((c : StoreCall) × c.Answer)) : Prop where
  accounts : s.store.tables.accounts.map (·.id) =
    List.range' 1 s.store.tables.accounts.length
  log : ∀ index entry, s.store.tables.log[index]? = some entry → entry.id = index + 1
  /-- No move removes an account, and none removes or changes an entry. -/
  kept : ∀ k m s', s.step k m = some s' →
    s.store.tables.accounts.map (·.id) <+: s'.store.tables.accounts.map (·.id) ∧
      s.store.tables.log <+: s'.store.tables.log
  found : ∀ u now id, 1 ≤ id → id ≤ s.store.tables.log.length →
    ∃ entry, s.store.tables.log[id - 1]? = some entry ∧
      s.store.perform u now (.transaction id) = some (s.store, .ok entry)
  missing : ∀ u now id, id = 0 ∨ s.store.tables.log.length < id →
    s.store.perform u now (.transaction id) =
      some (s.store, .error (.notFound .transaction id))
  account_ids : accountIds answers = s.store.tables.accounts.map (·.id) ∧
    (accountIds answers).Nodup
  entry_ids : entryIds answers = s.store.tables.log.map (·.id) ∧ (entryIds answers).Nodup

/-- However clients use a store that was empty at first, its accounts and its log entries count from
one, and stay; and the ids that inserts and commits have returned are theirs, each returned once. -/
theorem append_only {clients : Nat} {moves : List (UnitId × Move)}
    (hrun : (start clients {}).run moves = some s) :
    s.AppendOnly ((start clients {}).answers moves) := by
  have hgrows := grows_run (s := start clients {}) Tables.numbered_empty hrun
  have ht := hgrows.numbered Tables.numbered_empty
  refine ⟨ht.accounts, fun _ _ => ht.id_of_getElem?, ?_, ?_, ?_, ⟨?_, ?_⟩, ⟨?_, ?_⟩⟩
  · intro k m s' hstep
    have hnext := grows_step ht hstep
    exact ⟨hnext.prefix_ids, hnext.prefix_log⟩
  · intro u now id hpos hle
    have hlt : id - 1 < s.store.tables.log.length := by omega
    have hentry := List.getElem?_eq_getElem hlt
    have hfound := Tables.transaction_of_getElem? hentry
    rw [Nat.sub_add_cancel hpos] at hfound
    exact ⟨_, hentry, by rw [Store.perform, hfound]⟩
  · intro u now id hmissing
    rw [Store.perform, Tables.transaction_of_missing hmissing]
  · exact hgrows.ids.symm
  · rw [hgrows.next_accounts]
    exact List.nodup_range'
  · obtain ⟨added, hlog, hentries⟩ := hgrows.log
    rw [← hentries, hlog]
    rfl
  · rw [hgrows.next_entries]
    exact List.nodup_range'

/-- An entry is made between the last call of a unit of work and its commit, and another one between
the commit and the release of the unit's rows. -/
theorem append_only_interleaved :
    let rent : NewTransaction := ⟨1, none, 1, .cents 5, "rent", .deposit⟩
    let moves : List (UnitId × Move) :=
      [(0, .call (.insertAccount ⟨1, "savings", "USD", 0, .active⟩) .epoch),
        (0, .call .begin .epoch), (0, .lock 1), (0, .read), (0, .call (.append rent) .epoch),
        (1, .call (.insertAccount ⟨2, "savings", "USD", 0, .active⟩) .epoch),
        (0, .call (.append rent) .epoch), (1, .call (.insertTransaction rent) .epoch),
        (0, .commit .epoch), (1, .call (.insertTransaction rent) .epoch), (0, .release)]
    ∃ s, (start 2 {}).run moves = some s ∧
      accountIds ((start 2 {}).answers moves) = [1, 2] ∧
      entryIds ((start 2 {}).answers moves) = [1, 2, 3, 4] ∧
      s.AppendOnly ((start 2 {}).answers moves) := by
  intro rent moves
  have hgoes : ((start 2 {}).run moves).isSome = true := by decide +kernel
  obtain ⟨s, hrun⟩ := Option.isSome_iff_exists.mp hgoes
  exact ⟨s, hrun, by decide +kernel, by decide +kernel, append_only hrun⟩

end Clients

end Ledger
