import Ledger.Proofs.Tables.Alike

namespace Ledger

variable {R : Timestamp → Timestamp → Prop}

structure LockedRow.Alike (R : Timestamp → Timestamp → Prop) (a b : LockedRow) : Prop where
  id : a.id = b.id
  version : a.version = b.version
  saved : Option.Rel (Account.Alike R) a.saved b.saved

structure UnitOfWork.Alike (R : Timestamp → Timestamp → Prop) (u u' : UnitOfWork) : Prop where
  rows : List.Forall₂ (LockedRow.Alike R) u.rows u'.rows
  entries : u.entries = u'.entries
  finished : u.finished = u'.finished

structure Committed.Alike (R : Timestamp → Timestamp → Prop) (c c' : Committed) : Prop where
  accounts : List.Forall₂ (Account.Alike R) c.accounts c'.accounts
  transactions : List.Forall₂ (Transaction.Alike R) c.transactions c'.transactions

/-- Two courses that end alike, in their units of work, in the tables, and in what they return. -/
structure EndAlike (R : Timestamp → Timestamp → Prop) {ε α β : Type} (S : α → β → Prop)
    (x : UnitOfWork × Tables × Except ε α) (y : UnitOfWork × Tables × Except ε β) : Prop where
  unit : x.1.Alike R y.1
  tables : x.2.1.Alike R y.2.1
  result : Agree S x.2.2 y.2.2

namespace UnitOfWork

theorem alike_new : ({} : UnitOfWork).Alike R {} :=
  ⟨.nil, rfl, rfl⟩

theorem alike_closed : closed.Alike R closed :=
  ⟨.nil, rfl, rfl⟩

namespace Alike

variable {u u' : UnitOfWork} {t t' : Tables} {a b : Account} {now now' : Timestamp}

theorem row? (h : u.Alike R u') (id : AccountId) :
    Option.Rel (LockedRow.Alike R) (u.row? id) (u'.row? id) :=
  forall₂_find? h.rows fun _ _ hrow => by rw [hrow.id]

theorem holds (h : u.Alike R u') (id : AccountId) : u.holds id = u'.holds id := by
  rw [UnitOfWork.holds, UnitOfWork.holds, ← List.isSome_find?, ← List.isSome_find?]
  exact isSome_eq_of_rel (h.row? id)

theorem insertRow {row row' : LockedRow} {rows rows' : List LockedRow} (hrow : row.Alike R row')
    (h : List.Forall₂ (LockedRow.Alike R) rows rows') :
    List.Forall₂ (LockedRow.Alike R) (insertRow row rows) (UnitOfWork.insertRow row' rows') := by
  induction h with
  | nil => exact .cons hrow .nil
  | cons hother hrest ih =>
      unfold UnitOfWork.insertRow
      rw [hrow.id, hother.id]
      split
      · exact .cons hrow (.cons hother hrest)
      · exact .cons hother ih

theorem hold (h : u.Alike R u') (hrow : a.Alike R b) : (u.hold a).Alike R (u'.hold b) :=
  { h with rows := insertRow ⟨hrow.id, hrow.version, .none⟩ h.rows }

theorem view (h : u.Alike R u') (ht : t.Alike R t') (id : AccountId) :
    Agree (Account.Alike R) (u.view t id) (u'.view t' id) := by
  have hcopy : Option.Rel (Account.Alike R) ((u.row? id).bind (·.saved))
      ((u'.row? id).bind (·.saved)) := by
    match u.row? id, u'.row? id, h.row? id with
    | _, _, .none => exact .none
    | _, _, .some hrow => exact hrow.saved
  unfold UnitOfWork.view
  match (u.row? id).bind (·.saved), (u'.row? id).bind (·.saved), hcopy with
  | _, _, .none => exact ht.account id
  | _, _, .some hab => exact .ok hab

theorem save (h : u.Alike R u') (ht : t.Alike R t') (hrow : a.Alike R b) :
    EndAlike R Eq ((u.save a).1, t, (u.save a).2) ((u'.save b).1, t', (u'.save b).2) := by
  unfold UnitOfWork.save
  rw [h.finished, hrow.id, h.holds]
  split
  · exact ⟨h, ht, .error _⟩
  · split
    · refine ⟨⟨List.rel_map ?_ h.rows, h.entries, rfl⟩, ht, .ok rfl⟩
      intro row row' hlocked
      simp only [hlocked.id]
      split
      · exact ⟨rfl, hlocked.version, .some hrow⟩
      · exact hlocked
    · exact ⟨h, ht, .error _⟩

theorem append (h : u.Alike R u') (ht : t.Alike R t') (new : NewTransaction) :
    EndAlike R Eq ((u.append new).1, t, (u.append new).2)
      ((u'.append new).1, t', (u'.append new).2) := by
  unfold UnitOfWork.append
  rw [h.finished, h.entries]
  split
  · exact ⟨h, ht, .error _⟩
  · exact ⟨⟨h.rows, rfl, rfl⟩, ht, .ok rfl⟩

theorem rollback (h : u.Alike R u') (ht : t.Alike R t') :
    EndAlike R Eq (u.rollback.1, t, u.rollback.2) (u'.rollback.1, t', u'.rollback.2) := by
  unfold UnitOfWork.rollback
  rw [h.finished]
  split
  · exact ⟨h, ht, .error _⟩
  · exact ⟨alike_closed, ht, .ok rfl⟩

theorem staged (h : u.Alike R u') : List.Forall₂ (Account.Alike R) u.staged u'.staged := by
  refine List.rel_filterMap ?_ h.rows
  intro row row' hrow
  simp only [hrow.version]
  match row.saved, row'.saved, hrow.saved with
  | _, _, .none => exact .none
  | _, _, .some hcopy => exact .some (hcopy.withVersion _)

theorem verify (h : u.Alike R u') (ht : t.Alike R t') : u.verify t = u'.verify t' := by
  refine forM_eq_of_forall₂ h.rows ?_
  intro row row' hrow
  rw [hrow.id, hrow.version, isSome_eq_of_rel hrow.saved, ht.checkVersion]

theorem apply (h : u.Alike R u') (ht : t.Alike R t') (hnow : R now now') :
    (u.apply now t).Alike R (u'.apply now' t') := by
  have hwritten := List.rel_foldl (P := Tables.Alike R) (R := Account.Alike R)
    (fun _ _ ht _ _ hcopy => ht.replace (hcopy.stamp hnow)) ht h.staged
  unfold UnitOfWork.apply
  rw [h.entries]
  exact List.rel_foldl (P := Tables.Alike R) (R := Eq)
    (fun _ _ ht _ _ hnew => hnew ▸ ht.enter hnow _) hwritten (List.forall₂_refl _)

theorem commit (h : u.Alike R u') (ht : t.Alike R t') (hnow : R now now') :
    EndAlike R (Committed.Alike R) (u.commit now t) (u'.commit now' t') := by
  unfold UnitOfWork.commit
  rw [h.finished, h.verify ht]
  split
  · exact ⟨h, ht, .error _⟩
  · split
    · exact ⟨alike_closed, ht, .error _⟩
    · have happly := h.apply ht hnow
      refine ⟨alike_closed, happly, .ok ⟨?_, ?_⟩⟩
      · exact List.rel_map (fun _ _ hcopy => hcopy.stamp hnow) h.staged
      · simp only [written, ht.log.length_eq]
        exact List.forall₂_drop _ happly.log

end Alike

end UnitOfWork

end Ledger
