import Ledger.Proofs.Store.AppendOnly

/-!
The writes of a row, made by units of work and directly. Each of them is made on top of the version
that is stored then, so that no write is lost: one that is based on an older version is refused.
-/

namespace Ledger

/-- The rows that a call returns as they are stored. -/
def StoreCall.rowsReturned : (c : StoreCall) → c.Answer → List Account
  | .ownedAccount .., .ok row => [row]
  | .account _, .ok row => [row]
  | .insertAccount _, .ok row => [row]
  | .accountsOf _, .ok rows => rows
  | _, _ => []

namespace Tables

variable {t t' : Tables} {rows more : List Account} {id : AccountId} {row : Account}
  {now : Timestamp}

/-- The writes of one row among those of all. -/
def writesOf (id : AccountId) (rows : List Account) : List Account :=
  rows.filter (·.id = id)

/-- What tables have come to by the given writes, from the first one on: the versions that were
written of a row count from one up to the stored version, and the stored row is the last one that
was written. -/
structure Recorded (t : Tables) (rows : List Account) : Prop where
  versions : ∀ id row, t.find? id = some row →
    (writesOf id rows).map (·.version) = List.range' 1 row.version
  latest : ∀ id row last, t.find? id = some row → (writesOf id rows).getLast? = some last →
    row = last
  missing : ∀ id, t.find? id = none → writesOf id rows = []

/-- What becomes of one row while the given writes are made. -/
inductive Rewritten (t t' : Tables) (rows : List Account) (id : AccountId) : Prop
  | kept (hrow : t'.find? id = t.find? id) (hnone : writesOf id rows = [])
  | inserted {row : Account} (hmissing : t.find? id = none) (hrow : t'.find? id = some row)
      (hversion : row.version = 0) (hnone : writesOf id rows = [])
  | written {old row : Account} (hold : t.find? id = some old) (hrow : t'.find? id = some row)
      (hversion : row.version = old.version + 1) (hone : writesOf id rows = [row])

theorem writesOf_append (id : AccountId) (rows more : List Account) :
    writesOf id (rows ++ more) = writesOf id rows ++ writesOf id more :=
  List.filter_append rows more

theorem recorded_empty : ({} : Tables).Recorded [] :=
  ⟨fun _ _ h => (nomatch h), fun _ _ _ h => (nomatch h), fun _ _ => rfl⟩

theorem Recorded.length_writesOf (h : t.Recorded rows) (hrow : t.find? id = some row) :
    (writesOf id rows).length = row.version := by
  have hlength := congrArg List.length (h.versions id row hrow)
  rwa [List.length_map, List.length_range'] at hlength

theorem Recorded.append (h : t.Recorded rows) (hstep : ∀ id, t.Rewritten t' more id) :
    t'.Recorded (rows ++ more) := by
  refine ⟨fun id row hrow => ?_, fun id row last hrow hlast => ?_, fun id hmissing => ?_⟩
  · rw [writesOf_append]
    cases hstep id with
    | kept hsame hnone =>
        rw [hnone, List.append_nil, h.versions id row (hsame ▸ hrow)]
    | inserted hmissing hnew hversion hnone =>
        cases hnew.symm.trans hrow
        rw [hnone, h.missing id hmissing, hversion]
        rfl
    | written hold hnew hversion hone =>
        cases hnew.symm.trans hrow
        rw [hone, List.map_append, h.versions id _ hold, hversion, List.range'_concat, Nat.one_mul,
          Nat.add_comm 1, ← hversion]
        rfl
  · rw [writesOf_append] at hlast
    cases hstep id with
    | kept hsame hnone =>
        rw [hnone, List.append_nil] at hlast
        exact h.latest id row last (hsame ▸ hrow) hlast
    | inserted hmissing hnew hversion hnone =>
        rw [hnone, h.missing id hmissing] at hlast
        cases hlast
    | written hold hnew hversion hone =>
        rw [hone, List.getLast?_concat] at hlast
        cases hnew.symm.trans hrow
        exact Option.some.inj hlast
  · rw [writesOf_append]
    cases hstep id with
    | kept hsame hnone => rw [hnone, h.missing id (hsame ▸ hmissing)]; rfl
    | inserted _ hnew => cases hnew.symm.trans hmissing
    | written _ hnew => cases hnew.symm.trans hmissing

theorem rewritten_refl (t : Tables) (id : AccountId) : t.Rewritten t [] id :=
  .kept rfl rfl

theorem checkVersion_of_find? {stored : Account} (h : t.find? id = some stored) (expected : Nat) :
    t.checkVersion id expected =
      if stored.version = expected then .ok ()
      else .error (.conflict id expected stored.version) := by
  rw [checkVersion, account_of_find? h]

theorem find?_of_checkVersion {expected : Nat} (h : t.checkVersion id expected = .ok ()) :
    ∃ stored, t.find? id = some stored ∧ stored.version = expected := by
  unfold checkVersion at h
  split at h
  · cases h
  · rename_i stored hstored
    split at h
    · rename_i hversion
      exact ⟨stored, find?_of_account hstored, hversion⟩
    · cases h

theorem find?_replace_stamp {old : Account} (h : t.find? row.id = some old) (now : Timestamp) :
    (t.replace (stamp now row)).find? row.id = some (stamp now row) :=
  find?_replace_self h

theorem rewritten_replace (h : t.checkVersion row.id row.version = .ok ()) (now : Timestamp)
    (id : AccountId) : t.Rewritten (t.replace (stamp now row)) [stamp now row] id := by
  obtain ⟨stored, hstored, hversion⟩ := find?_of_checkVersion h
  rcases Decidable.em (id = row.id) with rfl | hne
  · refine .written hstored (find?_replace_stamp hstored now) ?_ ?_
    · rw [hversion, stamp]
    · simp [writesOf]
  · refine .kept (find?_replace_of_ne hne) ?_
    simp [writesOf, Ne.symm hne]

namespace Numbered

variable (ht : t.Numbered)

include ht

theorem nodup : (t.accounts.map (·.id)).Nodup := by
  rw [ht.accounts]
  exact List.nodup_range'

theorem find?_nextId : t.find? t.nextId = none := by
  rw [find?_eq_none_iff, ht.accounts, ht.nextId, List.mem_range'_1]
  omega

theorem find?_newRow (now : Timestamp) (new : NewAccount) :
    (t.insert now new).find? t.nextId = some (t.newRow now new) := by
  rw [find?_insert, ht.find?_nextId, if_pos rfl, Option.none_or]

theorem rewritten_insert (now : Timestamp) (new : NewAccount) (id : AccountId) :
    t.Rewritten (t.insert now new) [] id := by
  rcases Decidable.em (id = t.nextId) with rfl | hne
  · exact .inserted ht.find?_nextId (ht.find?_newRow now new) rfl rfl
  · refine .kept ?_ rfl
    rw [find?_insert, if_neg (Ne.symm hne), Option.or_none]

end Numbered

theorem writesOf_of_mem (h : rows.Pairwise (·.id < ·.id)) (hmem : row ∈ rows) :
    writesOf row.id rows = [row] := by
  induction rows with
  | nil => cases hmem
  | cons first rest ih =>
      obtain ⟨hfirst, hrest⟩ := List.pairwise_cons.mp h
      rcases List.mem_cons.mp hmem with rfl | hmem
      · have hothers : writesOf row.id rest = [] := by
          apply List.filter_eq_nil_iff.mpr
          exact fun other hother hid => Nat.ne_of_gt (hfirst other hother) (of_decide_eq_true hid)
        rw [writesOf, List.filter_cons_of_pos (by simp)]
        exact congrArg (row :: ·) hothers
      · have hne : first.id ≠ row.id := Nat.ne_of_lt (hfirst row hmem)
        rw [writesOf, List.filter_cons_of_neg (by simpa using hne)]
        exact ih hrest hmem

end Tables

namespace UnitOfWork

variable {u : UnitOfWork} {t : Tables} {now : Timestamp}

theorem ascending_perform {c : StoreCall} (h : u.rows.Pairwise (·.id < ·.id))
    (hc : c.isGradual = false) (now : Timestamp) (t : Tables) :
    (u.perform now t c).1.rows.Pairwise (·.id < ·.id) := by
  cases c with
  | begin => exact .nil
  | save row => exact ascending_save h row
  | append new =>
      simp only [perform, append]
      split <;> exact h
  | rollback =>
      simp only [perform, rollback]
      split
      · exact h
      · exact .nil
  | lock | saveAccount | commit => cases hc
  | _ => exact h

theorem rewritten_perform {c : StoreCall} (ht : t.Numbered) (hc : c.isGradual = false)
    (u : UnitOfWork) (now : Timestamp) (id : AccountId) :
    t.Rewritten (u.perform now t c).2.1 [] id := by
  cases c with
  | insertAccount new => exact ht.rewritten_insert now new id
  | insertTransaction new => exact .kept rfl rfl
  | lock | saveAccount | commit => cases hc
  | _ => exact t.rewritten_refl id

theorem find?_of_rowsReturned {c : StoreCall} {row : Account} (ht : t.Numbered)
    (hrow : row ∈ c.rowsReturned (u.perform now t c).2.2) :
    (u.perform now t c).2.1.find? row.id = some row := by
  cases c with
  | ownedAccount owner id =>
      simp only [perform] at hrow ⊢
      cases hanswer : t.ownedAccount owner id with
      | ok found =>
          rw [hanswer] at hrow
          obtain rfl := List.mem_singleton.mp hrow
          have hfound := (Tables.find?_of_ownedAccount hanswer).1
          rw [Tables.id_of_find? hfound, hfound]
      | error e =>
          rw [hanswer] at hrow
          cases hrow
  | account id =>
      simp only [perform] at hrow ⊢
      cases hanswer : t.account id with
      | ok found =>
          rw [hanswer] at hrow
          obtain rfl := List.mem_singleton.mp hrow
          have hfound := Tables.find?_of_account hanswer
          rw [Tables.id_of_find? hfound, hfound]
      | error e =>
          rw [hanswer] at hrow
          cases hrow
  | accountsOf owner => exact Tables.find?_of_mem ht.nodup (List.mem_filter.mp hrow).1
  | insertAccount new =>
      obtain rfl := List.mem_singleton.mp hrow
      exact ht.find?_newRow now new
  | _ => cases hrow

theorem rewritten_apply (hu : u.Sound) (hrows : u.rows.Pairwise (·.id < ·.id)) (hfresh : u.Fresh t)
    (now : Timestamp) (id : AccountId) :
    t.Rewritten (u.apply now t) (u.written now t).accounts id := by
  have hstaged := hu.ascending_staged hrows
  have hwritten : (u.written now t).accounts.Pairwise (·.id < ·.id) := List.pairwise_map.mpr hstaged
  rcases Decidable.em (∃ copy ∈ u.staged, copy.id = id) with ⟨copy, hcopy, rfl⟩ | hunsaved
  · obtain ⟨locked, saved, hlocked, hsaved, rfl⟩ := (mem_staged hrows).mp hcopy
    have hmem := (mem_rows_iff hrows).mpr hlocked
    obtain ⟨stored, hstored, hversion⟩ := hfresh locked hmem
    rw [← hu.saved locked hmem saved hsaved] at hstored
    refine .written hstored (hu.find?_apply hrows hcopy (by rw [hstored]; rfl)) ?_ ?_
    · rw [hversion, Tables.stamp]
    · exact Tables.writesOf_of_mem hwritten (List.mem_map_of_mem hcopy)
  · refine .kept (find?_apply_of_not_mem fun copy hcopy hid => hunsaved ⟨copy, hcopy, hid⟩) ?_
    apply List.filter_eq_nil_iff.mpr
    intro row hrow hid
    obtain ⟨copy, hcopy, rfl⟩ := List.mem_map.mp hrow
    exact hunsaved ⟨copy, hcopy, of_decide_eq_true hid⟩

end UnitOfWork

namespace Clients

variable {s s' : Clients} {k : UnitId} {m : Move} {rows since : List Account} {row copy : Account}

/-- The rows that a move writes, as they are then stored. -/
def written (s : Clients) (k : UnitId) : Move → List Account
  | .write now =>
      match s.activities[k]? with
      | some (.saving row) =>
          match s.store.tables.checkVersion row.id row.version with
          | .ok () => [Tables.stamp now row]
          | .error _ => []
      | _ => []
  | .commit now =>
      match (s.store.write k now).2 with
      | .ok committed => committed.accounts
      | .error _ => []
  | _ => []

/-- The rows that are written in the course of some moves. -/
def writes : Clients → List (UnitId × Move) → List Account
  | _, [] => []
  | s, (k, m) :: rest => s.written k m ++ (s.step k m).elim [] fun s' => s'.writes rest

/-- The rows that a call returns at a move. -/
def returned (s : Clients) (k : UnitId) (m : Move) : List Account :=
  (s.answered k m).toList.flatMap fun a => a.1.rowsReturned a.2

/-- The rows that calls return in the course of some moves, each with what is written after that. -/
def reads : Clients → List (UnitId × Move) → List (Account × List Account)
  | _, [] => []
  | s, (k, m) :: rest =>
      (s.step k m).elim [] fun s' =>
        (s.returned k m).map (·, s'.writes rest) ++ s'.reads rest

/-- The state of a store that was empty at first and has come to the given writes of rows. -/
structure Recorded (s : Clients) (rows : List Account) : Prop where
  sound : s.Sound
  numbered : s.store.tables.Numbered
  ascending : ∀ u, (s.store.unit u).rows.Pairwise (·.id < ·.id)
  recorded : s.store.tables.Recorded rows

theorem recorded_start (clients : Nat) : (start clients {}).Recorded [] where
  sound := sound_start clients {}
  numbered := Tables.numbered_empty
  ascending _ := .nil
  recorded := Tables.recorded_empty

theorem Recorded.unit (h : s.Recorded rows) {store : Store} {work : UnitOfWork} {t : Tables}
    (hmoves : s.store.Moves store k work t) (hwork : work.rows.Pairwise (·.id < ·.id))
    (u : UnitId) : (store.unit u).rows.Pairwise (·.id < ·.id) := by
  rcases Decidable.em (u = k) with rfl | hne
  · rw [hmoves.self]
    exact hwork
  · rw [hmoves.other u hne]
    exact h.ascending u

theorem rewritten_write (hk : s.activities[k]? = some (.saving row)) (now : Timestamp)
    (id : AccountId) :
    s.store.tables.Rewritten (overwrite s.store.tables now row) (s.written k (.write now)) id := by
  cases hversion : s.store.tables.checkVersion row.id row.version with
  | ok =>
      simp only [written, hk, overwrite, hversion]
      exact Tables.rewritten_replace hversion now id
  | error e =>
      simp only [written, hk, overwrite, hversion]
      exact s.store.tables.rewritten_refl id

theorem Recorded.rewritten_commit (h : s.Recorded rows)
    (hk : s.activities[k]? ≠ some .committed) (now : Timestamp) (id : AccountId) :
    s.store.tables.Rewritten (s.store.write k now).1.tables (s.written k (.commit now)) id := by
  cases hfinished : (s.store.unit k).finished with
  | true =>
      simp only [written, Store.write, UnitOfWork.commit, hfinished, if_true]
      exact s.store.tables.rewritten_refl id
  | false =>
      have hfresh := h.sound.fresh k hk
      simp only [written, Store.write, UnitOfWork.commit_of_fresh hfinished hfresh]
      exact UnitOfWork.rewritten_apply (h.sound.store.units k) (h.ascending k) hfresh now id

/-- A move leaves the rows of every unit in order, and rewrites no row but by what it writes. -/
theorem rewritten_step (h : s.Recorded rows) (hstep : s.step k m = some s') :
    (∀ u, (s'.store.unit u).rows.Pairwise (·.id < ·.id)) ∧
      ∀ id, s.store.tables.Rewritten s'.store.tables (s.written k m) id := by
  have hstore := h.sound.store
  unfold step at hstep
  -- The kinds of moves, in the order of `step`. Only writes and commits have anything to write.
  split at hstep
  · split at hstep
    · cases hstep
    · rename_i c now _ hc
      obtain ⟨⟨store, answer⟩, hperform, rfl⟩ := Option.map_eq_some_iff.mp hstep
      obtain ⟨hmoves, -⟩ := hstore.perform_eq hperform
      have hc : c.isGradual = false := by simpa using hc
      refine ⟨h.unit hmoves (UnitOfWork.ascending_perform (h.ascending k) hc now _), ?_⟩
      show ∀ id, s.store.tables.Rewritten store.tables [] id
      rw [hmoves.tables]
      exact UnitOfWork.rewritten_perform h.numbered hc _ now
  · split at hstep
    · cases hstep
      exact ⟨h.ascending, s.store.tables.rewritten_refl⟩
    · cases hstep
  · rename_i id hk
    obtain ⟨row, hrow, rfl⟩ := Option.map_eq_some_iff.mp hstep
    refine ⟨?_, s.store.tables.rewritten_refl⟩
    have hfree := h.sound.apart k _ row.id hk (decide_eq_true (Tables.id_of_find? hrow).symm)
    intro u
    show ((s.store.setUnit k _).unit u).rows.Pairwise (·.id < ·.id)
    rw [Store.unit_setUnit]
    split
    · exact UnitOfWork.ascending_hold (h.ascending k) (hfree k)
    · exact h.ascending u
  · split at hstep
    · cases hstep
      exact ⟨h.ascending, s.store.tables.rewritten_refl⟩
    · cases hstep
  · rename_i row now hk
    cases hstep
    exact ⟨h.ascending, rewritten_write hk now⟩
  · cases hstep
    exact ⟨h.ascending, s.store.tables.rewritten_refl⟩
  · rename_i now hk
    cases hstep
    exact ⟨h.ascending, h.rewritten_commit (by simp [hk]) now⟩
  · cases hstep
    refine ⟨h.unit (hstore.moves_release k) ?_, s.store.tables.rewritten_refl⟩
    unfold UnitOfWork.rollback
    split
    · exact h.ascending k
    · exact .nil
  · cases hstep
    exact ⟨h.unit (hstore.moves_drop k) .nil, s.store.tables.rewritten_refl⟩
  · cases hstep

theorem Recorded.step (h : s.Recorded rows) (hstep : s.step k m = some s') :
    s'.Recorded (rows ++ s.written k m) := by
  obtain ⟨hunits, hrows⟩ := rewritten_step h hstep
  exact ⟨h.sound.step hstep, (grows_step h.numbered hstep).numbered h.numbered, hunits,
    h.recorded.append hrows⟩

theorem Recorded.run {moves : List (UnitId × Move)} (h : s.Recorded rows)
    (hrun : s.run moves = some s') : s'.Recorded (rows ++ s.writes moves) := by
  induction moves generalizing s rows with
  | nil =>
      cases hrun
      rw [writes, List.append_nil]
      exact h
  | cons move rest ih =>
      obtain ⟨k, m⟩ := move
      obtain ⟨s₁, hstep, hrun⟩ := run_cons hrun
      rw [writes, hstep, Option.elim_some, ← List.append_assoc]
      exact ih (h.step hstep) hrun

theorem store_of_step_call {c : StoreCall} {now : Timestamp}
    (hstep : s.step k (.call c now) = some s') :
    (s.store.perform k now c).map (·.1) = some s'.store := by
  cases hk : s.activities[k]? with
  | none => simp [Clients.step, hk] at hstep
  | some activity =>
      cases activity with
      | idle =>
          simp only [Clients.step, hk] at hstep
          split at hstep
          · cases hstep
          · obtain ⟨done, hperform, rfl⟩ := Option.map_eq_some_iff.mp hstep
            rw [hperform]
            rfl
      | _ => simp [Clients.step, hk] at hstep

theorem find?_of_returned (h : s.Recorded rows) (hstep : s.step k m = some s')
    (hrow : row ∈ s.returned k m) : s'.store.tables.find? row.id = some row := by
  obtain ⟨answered, hanswered, hrow⟩ := List.mem_flatMap.mp hrow
  have hanswered : s.answered k m = some answered := Option.mem_toList.mp hanswered
  cases m with
  | call c now =>
      obtain ⟨⟨store, answer⟩, hperform, rfl⟩ := Option.map_eq_some_iff.mp hanswered
      obtain ⟨htables, rfl, -⟩ := Store.perform_unit hperform
      have hafter := store_of_step_call hstep
      rw [hperform, Option.map_some, Option.some.injEq] at hafter
      rw [← hafter, htables]
      exact UnitOfWork.find?_of_rowsReturned h.numbered hrow
  | commit now =>
      cases hanswered
      cases hrow
  | _ => cases hanswered

theorem Recorded.read (h : s.Recorded rows) {moves : List (UnitId × Move)}
    (hrun : s.run moves = some s') (hread : (row, since) ∈ s.reads moves) :
    ∃ stored, s'.store.tables.find? row.id = some stored ∧
      stored.version = row.version + (Tables.writesOf row.id since).length := by
  induction moves generalizing s rows with
  | nil => cases hread
  | cons move rest ih =>
      obtain ⟨k, m⟩ := move
      obtain ⟨s₁, hstep, hrun⟩ := run_cons hrun
      have h₁ := h.step hstep
      rw [reads, hstep, Option.elim_some] at hread
      rcases List.mem_append.mp hread with hnow | hlater
      · obtain ⟨returned, hreturned, heq⟩ := List.mem_map.mp hnow
        cases heq
        have hrow := find?_of_returned h hstep hreturned
        obtain ⟨stored, hstored⟩ : ∃ stored, s'.store.tables.find? row.id = some stored := by
          apply Option.ne_none_iff_exists'.mp
          intro hmissing
          apply Tables.find?_eq_none_iff.mp hmissing
          apply (grows_run h₁.numbered hrun).prefix_ids.subset
          exact List.mem_map.mpr ⟨row, Tables.mem_of_find? hrow, rfl⟩
        refine ⟨stored, hstored, ?_⟩
        have hlength := (h₁.run hrun).recorded.length_writesOf hstored
        rw [Tables.writesOf_append, List.length_append, h₁.recorded.length_writesOf hrow] at hlength
        exact hlength.symm
      · exact ih h₁ hrun hlater

theorem Sound.write_eq (hs : s.Sound) {stored : Account} (now : Timestamp)
    (hk : s.activities[k]? = some (.saving copy))
    (hstored : s.store.tables.find? copy.id = some stored) :
    ∃ store answer, s.store.perform k now (.saveAccount copy) = some (store, answer) ∧
      s.step k (.write now) = some (s.become k (.saved copy.id) store) ∧
      (stored.version = copy.version ∧ answer = .ok () ∧
          store.tables.find? copy.id = some (Tables.stamp now copy) ∨
        stored.version ≠ copy.version ∧
          answer = .error (.conflict copy.id copy.version stored.version) ∧ store = s.store) := by
  have hunlocked : s.store.isLocked copy.id = false := by
    cases hlocked : s.store.isLocked copy.id with
    | false => rfl
    | true =>
        obtain ⟨u, hholds⟩ := hs.store.isLocked_iff.mp hlocked
        rw [hs.apart k _ copy.id hk (decide_eq_true rfl) u] at hholds
        cases hholds
  have hversion := Tables.checkVersion_of_find? hstored copy.version
  rcases Decidable.em (stored.version = copy.version) with hsame | hother
  · rw [if_pos hsame] at hversion
    refine ⟨{ s.store with tables := s.store.tables.replace (Tables.stamp now copy) }, .ok (), ?_,
      ?_, .inl ⟨hsame, rfl, Tables.find?_replace_stamp hstored now⟩⟩
    · simp [Store.perform, Tables.account_of_find? hstored, hunlocked, hversion]
    · simp [Clients.step, hk, overwrite, hversion]
  · rw [if_neg hother] at hversion
    refine ⟨s.store, .error (.conflict copy.id copy.version stored.version), ?_, ?_,
      .inr ⟨hother, rfl, rfl⟩⟩
    · simp [Store.perform, Tables.account_of_find? hstored, hunlocked, hversion]
    · simp [Clients.step, hk, overwrite, hversion]

/-- However clients use a store that was empty at first, the versions written of a row count from
one up to the stored version, and the last row that was written is stored. A direct write of a row
that a call has returned, with any changes but to its id and version, goes through exactly if the
row has not been written since; else it is refused for the stored version and changes nothing. -/
theorem no_lost_updates {clients : Nat} {moves : List (UnitId × Move)}
    (hrun : (start clients {}).run moves = some s) :
    (∀ id stored, s.store.tables.find? id = some stored →
      (Tables.writesOf id ((start clients {}).writes moves)).map (·.version) =
          List.range' 1 stored.version ∧
        ∀ last, (Tables.writesOf id ((start clients {}).writes moves)).getLast? = some last →
          stored = last) ∧
    ∀ row since copy k now, (row, since) ∈ (start clients {}).reads moves →
      copy.id = row.id → copy.version = row.version → s.activities[k]? = some (.saving copy) →
      ∃ stored store answer, s.store.tables.find? row.id = some stored ∧
        s.store.perform k now (.saveAccount copy) = some (store, answer) ∧
        s.step k (.write now) = some (s.become k (.saved row.id) store) ∧
        (answer = .ok () ↔ Tables.writesOf row.id since = []) ∧
        (answer = .ok () → store.tables.find? row.id = some (Tables.stamp now copy)) ∧
        (answer ≠ .ok () →
          answer = .error (.conflict row.id row.version stored.version) ∧ store = s.store) := by
  have hs := (recorded_start clients).run hrun
  refine ⟨fun id stored hstored => ⟨hs.recorded.versions id stored hstored,
    fun last => hs.recorded.latest id stored last hstored⟩, ?_⟩
  intro row since copy k now hread hid hversion hk
  obtain ⟨stored, hstored, hsince⟩ := (recorded_start clients).read hrun hread
  obtain ⟨store, answer, hperform, hstep, hanswer⟩ := hs.sound.write_eq now hk (hid ▸ hstored)
  rw [hid, hversion] at hanswer
  refine ⟨stored, store, answer, hstored, hperform, hid ▸ hstep, ?_⟩
  rw [← List.length_eq_zero_iff]
  rcases hanswer with ⟨hsame, rfl, hwritten⟩ | ⟨hother, rfl, rfl⟩
  · exact ⟨iff_of_true rfl (by omega), fun _ => hwritten, fun h => absurd rfl h⟩
  · exact ⟨iff_of_false (fun h => nomatch h) (by omega), fun h => (nomatch h),
      fun _ => ⟨rfl, rfl⟩⟩

/-- A row is written directly and by a unit of work after a client has read it; what that client
makes of the row comes too late. -/
theorem no_lost_updates_interleaved :
    let opened : Account := ⟨1, 1, "savings", "USD", 0, .active, 0, .epoch, .epoch⟩
    let renamed : Account := { opened with product := "current" }
    let shared : Account := { opened with product := "shared" }
    let moves : List (UnitId × Move) :=
      [(0, .call (.insertAccount ⟨1, "savings", "USD", 0, .active⟩) .epoch),
        (1, .call (.account 1) .epoch), (0, .save renamed), (0, .write .epoch), (0, .unlock),
        (2, .call .begin .epoch), (2, .lock 1), (2, .read), (2, .call (.save opened) .epoch),
        (2, .commit .epoch), (2, .release), (1, .save shared)]
    let since : List Account := [{ renamed with version := 1 }, { opened with version := 2 }]
    ∃ s, (start 3 {}).run moves = some s ∧ (opened, since) ∈ (start 3 {}).reads moves ∧
      s.activities[1]? = some (.saving shared) ∧
      s.store.perform 1 .epoch (.saveAccount shared) =
        some (s.store, .error (.conflict 1 0 2)) := by
  intro opened renamed shared moves since
  have hseen : ((start 3 {}).run moves).map (fun s =>
      (s.activities[1]?, (s.store.tables.find? 1).map (·.version))) =
        some (some (.saving shared), some 2) := by
    decide +kernel
  obtain ⟨s, hrun, hseen⟩ := Option.map_eq_some_iff.mp hseen
  obtain ⟨hsaving, hversion⟩ := Prod.mk.inj hseen
  have hread : (opened, since) ∈ (start 3 {}).reads moves := by decide +kernel
  obtain ⟨-, hwrites⟩ := no_lost_updates hrun
  obtain ⟨stored, store, answer, hstored, hperform, -, hiff, -, hrefused⟩ :=
    hwrites opened since shared 1 .epoch hread rfl rfl hsaving
  obtain ⟨rfl, rfl⟩ := hrefused fun hok => absurd (hiff.mp hok) (by decide)
  rw [hstored, Option.map_some, Option.some.injEq] at hversion
  rw [hversion] at hperform
  exact ⟨s, hrun, hread, hsaving, hperform⟩

end Clients

end Ledger
