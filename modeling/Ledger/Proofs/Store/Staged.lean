import Ledger.Proofs.Store.Locks

namespace Ledger

namespace Tables

variable {t : Tables} {now : Timestamp} {id : AccountId}

/-- The log entries of some new transactions, with consecutive ids from the next one on. -/
def newEntries (t : Tables) (now : Timestamp) (news : List NewTransaction) : List Transaction :=
  news.mapIdx fun i new => { t.newEntry now new with id := t.log.length + 1 + i }

theorem log_foldl_enter (news : List NewTransaction) (now : Timestamp) (t : Tables) :
    (news.foldl (fun t new => t.enter now new) t).log = t.log ++ t.newEntries now news := by
  induction news generalizing t with
  | nil => simp [newEntries]
  | cons new rest ih =>
      rw [List.foldl_cons, ih, log_enter, List.append_assoc]
      simp only [newEntries, List.mapIdx_cons, log_enter, List.length_append, List.length_singleton,
        newEntry, List.singleton_append, Nat.add_zero]
      congr 3
      funext i new
      rw [Nat.add_right_comm, Nat.add_assoc _ i 1]

theorem accounts_foldl_enter (news : List NewTransaction) (now : Timestamp) (t : Tables) :
    (news.foldl (fun t new => t.enter now new) t).accounts = t.accounts := by
  induction news generalizing t with
  | nil => rfl
  | cons new rest ih => exact ih _

theorem ids_foldl_replace (copies : List Account) (now : Timestamp) (t : Tables) :
    (copies.foldl (fun t copy => t.replace (stamp now copy)) t).accounts.map (·.id) =
      t.accounts.map (·.id) := by
  induction copies generalizing t with
  | nil => rfl
  | cons copy rest ih =>
      rw [List.foldl_cons, ih, ids_replace]

theorem log_foldl_replace (copies : List Account) (now : Timestamp) (t : Tables) :
    (copies.foldl (fun t copy => t.replace (stamp now copy)) t).log = t.log := by
  induction copies generalizing t with
  | nil => rfl
  | cons copy rest ih => exact ih _

end Tables

namespace UnitOfWork

variable {u : UnitOfWork} {t : Tables} {now : Timestamp} {id : AccountId} {row : LockedRow}

theorem holds_eq_isSome (u : UnitOfWork) (id : AccountId) : u.holds id = (u.row? id).isSome := by
  rw [holds, row?, Bool.eq_iff_iff, List.any_eq_true, List.find?_isSome]

theorem ne_of_not_holds (h : u.holds id = false) (hrow : row ∈ u.rows) : row.id ≠ id := by
  intro hid
  rw [holds_iff.mpr ⟨row, hrow, hid⟩] at h
  cases h

theorem find?_insertRow (new : LockedRow) {rows : List LockedRow}
    (hne : ∀ other ∈ rows, other.id ≠ new.id) (id : AccountId) :
    (insertRow new rows).find? (fun row => row.id = id) =
      if id = new.id then some new else rows.find? fun row => row.id = id := by
  induction rows with
  | nil =>
      rcases Decidable.em (id = new.id) with rfl | hid
      · simp [insertRow]
      · simp [insertRow, hid, Ne.symm hid]
  | cons other rest ih =>
      have hother : other.id ≠ new.id := hne other (by simp)
      have ih := ih fun other hmem => hne other (by simp [hmem])
      unfold insertRow
      rcases Decidable.em (id = new.id) with rfl | hid
      · split
        · simp
        · simpa [hother] using ih
      · split
        · simp [Ne.symm hid]
        · simp only [hid, if_false] at ih ⊢
          simp only [List.find?_cons, ih]

theorem ascending_insertRow {new : LockedRow} {rows : List LockedRow}
    (h : rows.Pairwise (·.id < ·.id)) (hne : ∀ other ∈ rows, other.id ≠ new.id) :
    (insertRow new rows).Pairwise (·.id < ·.id) := by
  induction rows with
  | nil => exact List.pairwise_singleton _ _
  | cons other rest ih =>
      obtain ⟨hother, hrest⟩ := List.pairwise_cons.mp h
      unfold insertRow
      split
      · rename_i hlt
        refine List.pairwise_cons.mpr ⟨?_, h⟩
        intro row hrow
        rcases List.mem_cons.mp hrow with rfl | hmem
        · exact hlt
        · exact Nat.lt_trans hlt (hother row hmem)
      · rename_i hle
        refine List.pairwise_cons.mpr ⟨?_, ih hrest fun row hmem => hne row (by simp [hmem])⟩
        intro row hrow
        rcases (mem_insertRow _ _ _).mp hrow with rfl | hmem
        · exact Nat.lt_of_le_of_ne (Nat.not_lt.mp hle) (hne other (by simp))
        · exact hother row hmem

theorem row?_hold {stored : Account} (hfree : u.holds stored.id = false) (id : AccountId) :
    (u.hold stored).row? id =
      if id = stored.id then some ⟨stored.id, stored.version, none⟩ else u.row? id :=
  find?_insertRow ⟨stored.id, stored.version, none⟩ (fun _ => ne_of_not_holds hfree) id

theorem ascending_hold {stored : Account} (h : u.rows.Pairwise (·.id < ·.id))
    (hfree : u.holds stored.id = false) : (u.hold stored).rows.Pairwise (·.id < ·.id) :=
  ascending_insertRow h fun _ => ne_of_not_holds hfree

theorem save_of_holds {copy : Account} (hopen : u.finished = false) (h : u.holds copy.id = true) :
    u.save copy =
      ({ u with
          rows := u.rows.map fun row =>
            if row.id = copy.id then { row with saved := some copy } else row }, .ok ()) := by
  simp [save, hopen, h]

theorem save_of_not_holds {copy : Account} (hopen : u.finished = false)
    (h : u.holds copy.id = false) : u.save copy = (u, .error (.notLocked copy.id)) := by
  simp [save, hopen, h]

theorem row?_save {copy : Account} (hopen : u.finished = false) (h : u.holds copy.id = true)
    (id : AccountId) :
    (u.save copy).1.row? id =
      (u.row? id).map fun row => if id = copy.id then { row with saved := some copy } else row := by
  rw [save_of_holds hopen h, row?, row?, List.find?_map]
  have hid : ∀ row : LockedRow,
      (if row.id = copy.id then { row with saved := some copy } else row).id = row.id := by
    intro row
    split <;> rfl
  simp only [Function.comp_def, hid]
  refine Option.map_congr ?_
  intro row hrow
  have hrow : row.id = id := by simpa using List.find?_some hrow
  rw [hrow]

theorem ascending_save (h : u.rows.Pairwise (·.id < ·.id)) (copy : Account) :
    (u.save copy).1.rows.Pairwise (·.id < ·.id) := by
  unfold save
  split
  · exact h
  · split
    · refine List.pairwise_map.mpr (h.imp ?_)
      intro a b hlt
      split <;> split <;> exact hlt
    · exact h

theorem mem_rows_iff (h : u.rows.Pairwise (·.id < ·.id)) :
    row ∈ u.rows ↔ u.row? row.id = some row := by
  refine ⟨?_, List.mem_of_find?_eq_some⟩
  rw [row?]
  generalize u.rows = rows at h
  intro hmem
  induction rows with
  | nil => cases hmem
  | cons first rest ih =>
      obtain ⟨hfirst, hrest⟩ := List.pairwise_cons.mp h
      rcases List.mem_cons.mp hmem with rfl | hmem
      · simp
      · have hne : first.id ≠ row.id := Nat.ne_of_lt (hfirst row hmem)
        rw [List.find?_cons_of_neg (by simpa using hne)]
        exact ih hrest hmem

theorem mem_staged (h : u.rows.Pairwise (·.id < ·.id)) {copy : Account} :
    copy ∈ u.staged ↔ ∃ row saved, u.row? row.id = some row ∧ row.saved = some saved ∧
      copy = { saved with version := row.version } := by
  simp only [staged, List.mem_filterMap, Option.map_eq_some_iff, mem_rows_iff h]
  constructor
  · rintro ⟨row, hrow, saved, hsaved, rfl⟩
    exact ⟨row, saved, hrow, hsaved, rfl⟩
  · rintro ⟨row, saved, hrow, hsaved, rfl⟩
    exact ⟨row, hrow, saved, hsaved, rfl⟩

theorem Sound.ascending_staged (hu : u.Sound) (h : u.rows.Pairwise (·.id < ·.id)) :
    u.staged.Pairwise (·.id < ·.id) := by
  refine List.pairwise_filterMap.mpr (h.imp_of_mem ?_)
  intro a b ha hb hlt copy hcopy copy' hcopy'
  obtain ⟨saved, hsaved, rfl⟩ := Option.map_eq_some_iff.mp hcopy
  obtain ⟨saved', hsaved', rfl⟩ := Option.map_eq_some_iff.mp hcopy'
  show saved.id < saved'.id
  rw [hu.saved a ha saved hsaved, hu.saved b hb saved' hsaved']
  exact hlt

theorem find?_foldl_replace_of_mem (copies : List Account) (now : Timestamp) (t : Tables)
    {copy : Account} (h : copies.Pairwise (·.id < ·.id)) (hmem : copy ∈ copies)
    (hfound : (t.find? copy.id).isSome = true) :
    (copies.foldl (fun t copy => t.replace (Tables.stamp now copy)) t).find? copy.id =
      some (Tables.stamp now copy) := by
  induction copies generalizing t with
  | nil => cases hmem
  | cons first rest ih =>
      obtain ⟨hfirst, hrest⟩ := List.pairwise_cons.mp h
      obtain ⟨old, hold⟩ := Option.isSome_iff_exists.mp hfound
      rw [List.foldl_cons]
      rcases List.mem_cons.mp hmem with rfl | hmem
      · rw [find?_foldl_replace rest now _ fun other hother => Nat.ne_of_gt (hfirst other hother)]
        exact Tables.find?_replace_self hold
      · refine ih _ hrest hmem ?_
        have hne : copy.id ≠ (Tables.stamp now first).id := Nat.ne_of_gt (hfirst copy hmem)
        rw [Tables.find?_replace_of_ne hne]
        exact hfound

theorem ids_apply (u : UnitOfWork) (now : Timestamp) (t : Tables) :
    (u.apply now t).accounts.map (·.id) = t.accounts.map (·.id) := by
  rw [apply, Tables.accounts_foldl_enter, Tables.ids_foldl_replace]

theorem log_apply (u : UnitOfWork) (now : Timestamp) (t : Tables) :
    (u.apply now t).log = t.log ++ t.newEntries now u.entries := by
  simp only [apply, Tables.log_foldl_enter, Tables.newEntries, Tables.newEntry,
    Tables.log_foldl_replace]

theorem written_transactions (u : UnitOfWork) (now : Timestamp) (t : Tables) :
    (u.written now t).transactions = t.newEntries now u.entries := by
  rw [written, log_apply, List.drop_left]

theorem find?_apply_of_not_mem (h : ∀ copy ∈ u.staged, copy.id ≠ id) :
    (u.apply now t).find? id = t.find? id := by
  rw [apply, find?_foldl_enter, find?_foldl_replace u.staged now t h]

theorem Sound.find?_apply (hu : u.Sound) (h : u.rows.Pairwise (·.id < ·.id)) {copy : Account}
    (hmem : copy ∈ u.staged) (hfound : (t.find? copy.id).isSome = true) :
    (u.apply now t).find? copy.id = some (Tables.stamp now copy) := by
  rw [apply, find?_foldl_enter,
    find?_foldl_replace_of_mem u.staged now t (hu.ascending_staged h) hmem hfound]

end UnitOfWork

end Ledger
