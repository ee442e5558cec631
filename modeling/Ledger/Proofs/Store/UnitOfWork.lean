import Ledger.Proofs.Store.Tables
import Ledger.Store.Basic

namespace Ledger.UnitOfWork

variable {u : UnitOfWork} {t t' : Tables} {now : Timestamp} {id : AccountId}

/-- A saved copy stands for the row it is kept with, and a closed unit holds nothing. -/
structure Sound (u : UnitOfWork) : Prop where
  saved : ∀ row ∈ u.rows, ∀ copy, row.saved = some copy → copy.id = row.id
  closed : u.finished = true → u.rows = []

/-- What a call does to the unit of work it is made on, and to the tables, where no other unit holds
the row that it needs. -/
def perform (u : UnitOfWork) (now : Timestamp) (t : Tables) :
    (c : StoreCall) → UnitOfWork × Tables × c.Answer
  | .ownedAccount owner id => (u, t, t.ownedAccount owner id)
  | .account id => (u, t, t.account id)
  | .accountsOf owner => (u, t, .ok (t.accountsOf owner))
  | .insertAccount new => (u, t.insert now new, .ok (t.newRow now new))
  | .saveAccount row =>
      match t.checkVersion row.id row.version with
      | .error e => (u, t, .error e)
      | .ok () => (u, t.replace (Tables.stamp now row), .ok ())
  | .insertTransaction new => (u, t.enter now new, .ok (t.newEntry now new))
  | .query filter => (u, t, .ok (filter.page? t.log))
  | .transaction id => (u, t, t.transaction id)
  | .begin => ({}, t, .ok ())
  | .lock id =>
      if u.finished then (u, t, .error .closed)
      else if u.holds id then (u, t, u.view t id)
      else
        match t.account id with
        | .error e => (u, t, .error e)
        | .ok row => (u.hold row, t, .ok row)
  | .save row => ((u.save row).1, t, (u.save row).2)
  | .append new => ((u.append new).1, t, (u.append new).2)
  | .commit => u.commit now t
  | .rollback => (u.rollback.1, t, u.rollback.2)

@[simp] theorem holds_closed (id : AccountId) : closed.holds id = false :=
  rfl

theorem holds_iff : u.holds id = true ↔ ∃ row ∈ u.rows, row.id = id := by
  simp [holds]

theorem mem_insertRow (row other : LockedRow) (rows : List LockedRow) :
    other ∈ insertRow row rows ↔ other = row ∨ other ∈ rows := by
  induction rows with
  | nil => simp [insertRow]
  | cons first rest ih =>
      unfold insertRow
      split
      · simp
      · simp only [List.mem_cons, ih]
        exact or_left_comm

theorem holds_hold (row : Account) :
    (u.hold row).holds id = true ↔ id = row.id ∨ u.holds id = true := by
  simp only [holds_iff, hold, mem_insertRow]
  constructor
  · rintro ⟨other, rfl | hmem, rfl⟩
    · exact .inl rfl
    · exact .inr ⟨other, hmem, rfl⟩
  · rintro (rfl | ⟨other, hmem, rfl⟩)
    · exact ⟨_, .inl rfl, rfl⟩
    · exact ⟨other, .inr hmem, rfl⟩

@[simp] theorem holds_save (copy : Account) : (u.save copy).1.holds id = u.holds id := by
  unfold save
  split
  · rfl
  · split
    · simp only [holds, List.any_map]
      congr 1
      funext row
      simp only [Function.comp_apply]
      split <;> rfl
    · rfl

@[simp] theorem holds_append (new : NewTransaction) :
    (u.append new).1.holds id = u.holds id := by
  unfold append
  split <;> rfl

theorem Sound.holds_of_finished (hu : u.Sound) (h : u.finished = true) (id : AccountId) :
    u.holds id = false := by
  simp [holds, hu.closed h]

theorem sound_closed : closed.Sound :=
  ⟨by simp [closed], fun _ => rfl⟩

theorem sound_new : ({} : UnitOfWork).Sound :=
  ⟨by simp, by simp⟩

theorem Sound.hold (hu : u.Sound) (hopen : u.finished = false) (row : Account) :
    (u.hold row).Sound := by
  constructor
  · intro other hmem copy hcopy
    rcases (mem_insertRow _ _ _).mp hmem with rfl | hmem
    · cases hcopy
    · exact hu.saved other hmem copy hcopy
  · intro h
    simp [UnitOfWork.hold, hopen] at h

theorem Sound.save (hu : u.Sound) (copy : Account) : (u.save copy).1.Sound := by
  unfold UnitOfWork.save
  split
  · exact hu
  · rename_i hopen
    split
    · refine ⟨?_, fun h => absurd h hopen⟩
      intro row hrow saved hsaved
      obtain ⟨old, hold, rfl⟩ := List.mem_map.mp hrow
      split at hsaved
      · rename_i hid
        cases hsaved
        simp [hid]
      · rename_i hid
        simpa [hid] using hu.saved old hold saved hsaved
    · exact hu

theorem Sound.append (hu : u.Sound) (new : NewTransaction) : (u.append new).1.Sound := by
  unfold UnitOfWork.append
  split
  · exact hu
  · exact ⟨hu.saved, hu.closed⟩

theorem Sound.rollback (hu : u.Sound) : u.rollback.1.Sound := by
  unfold UnitOfWork.rollback
  split
  · exact hu
  · exact sound_closed

theorem holds_rollback (hu : u.Sound) (id : AccountId) : u.rollback.1.holds id = false := by
  unfold rollback
  split
  · rename_i h
    exact hu.holds_of_finished h id
  · rfl

theorem commit_fst : (u.commit now t).1 = u.rollback.1 := by
  unfold commit rollback
  split
  · rfl
  · split <;> rfl

theorem Sound.exists_of_mem_staged (hu : u.Sound) {copy : Account} (h : copy ∈ u.staged) :
    u.holds copy.id = true := by
  obtain ⟨row, hrow, hcopy⟩ := List.mem_filterMap.mp h
  obtain ⟨saved, hsaved, rfl⟩ := Option.map_eq_some_iff.mp hcopy
  rw [holds_iff]
  exact ⟨row, hrow, (hu.saved row hrow saved hsaved).symm⟩

theorem find?_foldl_enter (entries : List NewTransaction) (now : Timestamp) (t : Tables) :
    (entries.foldl (fun t new => t.enter now new) t).find? id = t.find? id := by
  induction entries generalizing t with
  | nil => rfl
  | cons new rest ih => rw [List.foldl_cons, ih, Tables.find?_enter]

theorem find?_foldl_replace (copies : List Account) (now : Timestamp) (t : Tables)
    (h : ∀ copy ∈ copies, copy.id ≠ id) :
    (copies.foldl (fun t copy => t.replace (Tables.stamp now copy)) t).find? id = t.find? id := by
  induction copies generalizing t with
  | nil => rfl
  | cons copy rest ih =>
      rw [List.foldl_cons, ih _ fun other hother => h other (by simp [hother])]
      exact Tables.find?_replace_of_ne fun hid => h copy (by simp) (by simp [hid])

theorem find?_commit_isSome (u : UnitOfWork) (now : Timestamp) (t : Tables) (id : AccountId) :
    ((u.commit now t).2.1.find? id).isSome = (t.find? id).isSome := by
  have hwrites : ∀ (copies : List Account) (t : Tables),
      ((copies.foldl (fun t copy => t.replace (Tables.stamp now copy)) t).find? id).isSome =
        (t.find? id).isSome := by
    intro copies
    induction copies with
    | nil => exact fun _ => rfl
    | cons copy rest ih =>
        intro t
        rw [List.foldl_cons, ih, Tables.find?_replace_isSome]
  unfold commit
  split
  · rfl
  · split
    · rfl
    · unfold apply
      rw [find?_foldl_enter, hwrites]

theorem find?_commit_of_not_holds (hu : u.Sound) (h : u.holds id = false) :
    (u.commit now t).2.1.find? id = t.find? id := by
  unfold commit
  split
  · rfl
  · split
    · rfl
    · unfold apply
      rw [find?_foldl_enter, find?_foldl_replace]
      intro copy hcopy hid
      have hholds := hu.exists_of_mem_staged hcopy
      rw [hid, h] at hholds
      cases hholds

theorem find?_perform {c : StoreCall} {row : Account} (hu : u.Sound)
    (hc : ∀ copy, c ≠ .saveAccount copy) (hrow : t.find? id = some row)
    (hfree : u.holds id = false) : (u.perform now t c).2.1.find? id = some row := by
  cases c with
  | saveAccount copy => exact absurd rfl (hc copy)
  | insertAccount new => exact Tables.find?_insert_of_find? now new hrow
  | commit => exact (find?_commit_of_not_holds hu hfree).trans hrow
  | lock id' =>
      simp only [perform]
      split
      · exact hrow
      · split
        · exact hrow
        · split <;> exact hrow
  | _ => exact hrow

theorem forM_ok {rows : List LockedRow} {check : LockedRow → Except StoreError Unit}
    (h : ∀ row ∈ rows, check row = .ok ()) : rows.forM check = .ok () := by
  induction rows with
  | nil => rfl
  | cons row rest ih =>
      show (check row >>= fun _ => rest.forM check) = .ok ()
      rw [h row (by simp)]
      exact ih fun other hother => h other (by simp [hother])

theorem commit_of_fresh (hopen : u.finished = false)
    (h : ∀ row ∈ u.rows, ∃ stored, t.find? row.id = some stored ∧ stored.version = row.version) :
    u.commit now t = (closed, u.apply now t, .ok (u.written now t)) := by
  have hverify : u.verify t = .ok () := by
    refine forM_ok ?_
    intro row hrow
    obtain ⟨stored, hfind, hversion⟩ := h row hrow
    simp only [Tables.checkVersion, Tables.account_of_find? hfind, hversion, if_true, ite_self]
  simp only [commit, hopen, Bool.false_eq_true, if_false, hverify]

end Ledger.UnitOfWork
