import Ledger.Proofs.Store.UnitOfWork

namespace Ledger.Store

variable {s s' : Store} {u v : UnitId} {work : UnitOfWork} {id : AccountId} {now : Timestamp}

/-- Every unit of work has one state, and no row is held by two of them. -/
structure Sound (s : Store) : Prop where
  nodup : (s.units.map Prod.fst).Nodup
  units : ∀ u, (s.unit u).Sound
  exclusive : ∀ u v id, (s.unit u).holds id = true → (s.unit v).holds id = true → u = v

theorem lookup_filter_ne (units : List (UnitId × UnitOfWork)) (u v : UnitId) :
    (units.filter (·.1 ≠ u)).lookup v = if v = u then none else units.lookup v := by
  induction units with
  | nil => simp
  | cons entry rest ih =>
      obtain ⟨w, work⟩ := entry
      by_cases hw : w = u
      · subst hw
        by_cases hv : v = w
        · simpa [hv] using ih
        · have hbeq : (v == w) = false := by simpa using hv
          simpa [hv, List.lookup_cons, hbeq] using ih
      · by_cases hv : v = w
        · subst hv
          simp [hw]
        · have hbeq : (v == w) = false := by simpa using hv
          simpa [hw, List.lookup_cons, hbeq] using ih

theorem unit_setUnit (s : Store) (u v : UnitId) (work : UnitOfWork) :
    (s.setUnit u work).unit v = if v = u then work else s.unit v := by
  change (List.lookup v ((u, work) :: s.units.filter (·.1 ≠ u))).getD .closed = _
  by_cases hv : v = u
  · simp [hv]
  · have hbeq : (v == u) = false := by simpa using hv
    rw [List.lookup_cons, hbeq, lookup_filter_ne, if_neg hv, if_neg hv]
    rfl

theorem unit_drop (s : Store) (u v : UnitId) :
    (s.drop u).unit v = if v = u then .closed else s.unit v := by
  change (List.lookup v (s.units.filter (·.1 ≠ u))).getD .closed = _
  rw [lookup_filter_ne]
  split <;> rfl

theorem lookup_of_mem {units : List (UnitId × UnitOfWork)} (hnodup : (units.map Prod.fst).Nodup)
    (h : (u, work) ∈ units) : units.lookup u = some work := by
  induction units with
  | nil => cases h
  | cons entry rest ih =>
      rw [List.map_cons, List.nodup_cons] at hnodup
      rcases List.mem_cons.mp h with rfl | hmem
      · simp
      · have hne : u ≠ entry.1 := by
          rintro rfl
          exact hnodup.1 (List.mem_map.mpr ⟨_, hmem, rfl⟩)
        have hbeq : (u == entry.1) = false := by simpa using hne
        rw [List.lookup_cons, hbeq]
        exact ih hnodup.2 hmem

theorem mem_of_lookup {units : List (UnitId × UnitOfWork)} (h : units.lookup u = some work) :
    (u, work) ∈ units := by
  induction units with
  | nil => cases h
  | cons entry rest ih =>
      rw [List.lookup_cons] at h
      split at h
      · rename_i heq
        cases h
        have hu : u = entry.1 := by simpa using heq
        simp [hu]
      · exact List.mem_cons_of_mem _ (ih h)

theorem Sound.isLocked_iff (hs : s.Sound) :
    s.isLocked id = true ↔ ∃ u, (s.unit u).holds id = true := by
  unfold isLocked
  rw [List.any_eq_true]
  constructor
  · rintro ⟨⟨u, work⟩, hmem, hholds⟩
    refine ⟨u, ?_⟩
    rw [unit, lookup_of_mem hs.nodup hmem]
    exact hholds
  · rintro ⟨u, hholds⟩
    cases hlookup : s.units.lookup u with
    | none => simp [unit, hlookup] at hholds
    | some work =>
        rw [unit, hlookup] at hholds
        exact ⟨(u, work), mem_of_lookup hlookup, hholds⟩

theorem sound_empty (t : Tables) : ({ tables := t } : Store).Sound where
  nodup := List.nodup_nil
  units _ := UnitOfWork.sound_closed
  exclusive _ _ _ h := by cases h

theorem Sound.of_units (hs : s.Sound) (h : s'.units = s.units) : s'.Sound := by
  have hunit : ∀ u, s'.unit u = s.unit u := fun u => by rw [unit, unit, h]
  refine ⟨h ▸ hs.nodup, fun u => hunit u ▸ hs.units u, ?_⟩
  intro u v id hu hv
  rw [hunit] at hu hv
  exact hs.exclusive u v id hu hv

theorem nodup_filter (hs : s.Sound) (u : UnitId) :
    ((s.units.filter (·.1 ≠ u)).map Prod.fst).Nodup :=
  hs.nodup.sublist (List.Sublist.map _ List.filter_sublist)

theorem Sound.drop (hs : s.Sound) (u : UnitId) : (s.drop u).Sound := by
  refine ⟨nodup_filter hs u, ?_, ?_⟩
  · intro v
    rw [unit_drop]
    split
    · exact UnitOfWork.sound_closed
    · exact hs.units v
  · intro v w id hv hw
    rw [unit_drop] at hv hw
    split at hv
    · cases hv
    · split at hw
      · cases hw
      · exact hs.exclusive v w id hv hw

theorem Sound.setUnit (hs : s.Sound) (hwork : work.Sound)
    (h : ∀ id, work.holds id = true → (s.unit u).holds id = true ∨ s.isLocked id = false) :
    (s.setUnit u work).Sound := by
  have hothers : ∀ v id, v ≠ u → work.holds id = true → (s.unit v).holds id = true → False := by
    intro v id hne hown hother
    rcases h id hown with hheld | hfree
    · exact hne (hs.exclusive v u id hother hheld)
    · rw [hs.isLocked_iff.mpr ⟨v, hother⟩] at hfree
      cases hfree
  refine ⟨?_, ?_, ?_⟩
  · simp only [Store.setUnit, List.map_cons, List.nodup_cons]
    refine ⟨?_, nodup_filter hs u⟩
    simp
  · intro v
    rw [unit_setUnit]
    split
    · exact hwork
    · exact hs.units v
  · intro v w id hv hw
    rw [unit_setUnit] at hv hw
    split at hv <;> split at hw
    · rename_i hvu hwu
      exact hvu.trans hwu.symm
    · rename_i _ hwu
      exact (hothers w id hwu hv hw).elim
    · rename_i hvu _
      exact (hothers v id hvu hw hv).elim
    · exact hs.exclusive v w id hv hw

/-- The second store differs from the first in the state of one unit and in the tables. -/
structure Moves (s s' : Store) (u : UnitId) (work : UnitOfWork) (t : Tables) : Prop where
  sound : s'.Sound
  tables : s'.tables = t
  self : s'.unit u = work
  other : ∀ v, v ≠ u → s'.unit v = s.unit v

theorem Sound.moves_setUnit (hs : s.Sound) (hwork : work.Sound)
    (h : ∀ id, work.holds id = true → (s.unit u).holds id = true ∨ s.isLocked id = false) :
    s.Moves (s.setUnit u work) u work s.tables where
  sound := hs.setUnit hwork h
  tables := rfl
  self := by simp [unit_setUnit]
  other v hv := by simp [unit_setUnit, hv]

theorem Sound.moves_tables (hs : s.Sound) (u : UnitId) (t : Tables) :
    s.Moves { s with tables := t } u (s.unit u) t where
  sound := hs.of_units rfl
  tables := rfl
  self := rfl
  other _ _ := rfl

theorem Sound.moves_self (hs : s.Sound) (u : UnitId) : s.Moves s u (s.unit u) s.tables :=
  hs.moves_tables u s.tables

theorem Sound.moves_drop (hs : s.Sound) (u : UnitId) :
    s.Moves (s.drop u) u .closed s.tables where
  sound := hs.drop u
  tables := rfl
  self := by simp [unit_drop]
  other v hv := by simp [unit_drop, hv]

/-- Writes what a unit of work has staged. The unit still holds its rows. -/
def write (s : Store) (u : UnitId) (now : Timestamp) : Store × Except StoreError Committed :=
  ({ s with tables := ((s.unit u).commit now s.tables).2.1 }, ((s.unit u).commit now s.tables).2.2)

/-- Closes a unit of work: its rows are free. -/
def release (s : Store) (u : UnitId) : Store :=
  s.setUnit u (s.unit u).rollback.1

theorem perform_commit (s : Store) (u : UnitId) (now : Timestamp) :
    s.perform u now .commit = some ((s.write u now).1.release u, (s.write u now).2) := by
  simp only [perform, UnitOfWork.commit_fst]
  rfl

theorem Sound.moves_release (hs : s.Sound) (u : UnitId) :
    s.Moves (s.release u) u (s.unit u).rollback.1 s.tables := by
  refine hs.moves_setUnit (hs.units u).rollback ?_
  intro id h
  rw [UnitOfWork.holds_rollback (hs.units u)] at h
  cases h

/-- What a call does to the store is what it does to its own unit and to the tables. -/
theorem perform_unit {c : StoreCall} {a : c.Answer} (h : s.perform u now c = some (s', a)) :
    s'.tables = ((s.unit u).perform now s.tables c).2.1 ∧
      a = ((s.unit u).perform now s.tables c).2.2 ∧
      ∀ v, s'.unit v = if v = u then ((s.unit u).perform now s.tables c).1 else s.unit v := by
  have hself : ∀ v, s.unit v = if v = u then s.unit u else s.unit v :=
    fun v => (ite_eq_right_iff.mpr fun hv => by rw [hv]).symm
  cases c with
  | saveAccount row =>
      simp only [perform] at h
      simp only [UnitOfWork.perform]
      cases hrow : s.tables.account row.id with
      | error e =>
          simp only [hrow] at h
          cases h
          simp only [Tables.checkVersion, hrow]
          exact ⟨trivial, trivial, hself⟩
      | ok old =>
          simp only [hrow] at h
          split at h
          · cases h
          · cases hversion : s.tables.checkVersion row.id row.version with
            | error e | ok =>
                simp only [hversion] at h
                cases h
                exact ⟨rfl, rfl, hself⟩
  | lock id =>
      simp only [perform] at h
      simp only [UnitOfWork.perform]
      split at h
      · rename_i hfinished
        cases h
        simp only [hfinished, if_true]
        exact ⟨trivial, trivial, hself⟩
      · rename_i hopen
        simp only [hopen, Bool.false_eq_true, if_false]
        split at h
        · rename_i hheld
          cases h
          simp only [hheld, if_true]
          exact ⟨trivial, trivial, hself⟩
        · rename_i hheld
          simp only [hheld, Bool.false_eq_true, if_false]
          cases hrow : s.tables.account id with
          | error e =>
              simp only [hrow] at h
              cases h
              exact ⟨rfl, rfl, hself⟩
          | ok row =>
              simp only [hrow] at h
              split at h
              · cases h
              · cases h
                exact ⟨rfl, rfl, fun v => unit_setUnit s u v _⟩
  | begin | save | append | commit | rollback =>
      cases h
      exact ⟨rfl, rfl, fun v => unit_setUnit s u v _⟩
  | _ =>
      cases h
      exact ⟨rfl, rfl, hself⟩

theorem Sound.perform (hs : s.Sound) {c : StoreCall} {a : c.Answer}
    (h : s.perform u now c = some (s', a)) : s'.Sound := by
  cases c with
  | saveAccount row =>
      simp only [Store.perform] at h
      split at h
      · cases h
        exact hs
      · split at h
        · cases h
        · split at h
          · cases h
            exact hs
          · cases h
            exact hs.of_units rfl
  | begin =>
      cases h
      exact hs.setUnit UnitOfWork.sound_new fun _ h => by cases h
  | lock id =>
      simp only [Store.perform] at h
      split at h
      · cases h
        exact hs
      · rename_i hopen
        split at h
        · cases h
          exact hs
        · split at h
          · cases h
            exact hs
          · rename_i row hrow
            split at h
            · cases h
            · rename_i hfree
              cases h
              have hid := Tables.id_of_find? (Tables.find?_of_account hrow)
              refine hs.setUnit ((hs.units u).hold (by simpa using hopen) row) ?_
              intro other hother
              rcases (UnitOfWork.holds_hold row).mp hother with rfl | hbefore
              · exact .inr (by simpa [hid] using hfree)
              · exact .inl hbefore
  | save row =>
      cases h
      exact hs.setUnit ((hs.units u).save row) fun id hid =>
        .inl (UnitOfWork.holds_save row ▸ hid)
  | append new =>
      cases h
      exact hs.setUnit ((hs.units u).append new) fun id hid =>
        .inl (UnitOfWork.holds_append new ▸ hid)
  | commit =>
      rw [perform_commit] at h
      cases h
      exact ((hs.moves_tables u _).sound.moves_release u).sound
  | rollback =>
      cases h
      exact (hs.moves_release u).sound
  | insertAccount new =>
      cases h
      exact hs.of_units rfl
  | insertTransaction new =>
      cases h
      exact hs.of_units rfl
  | _ =>
      cases h
      exact hs

theorem Sound.perform_eq (hs : s.Sound) {c : StoreCall} {a : c.Answer}
    (h : s.perform u now c = some (s', a)) :
    s.Moves s' u ((s.unit u).perform now s.tables c).1
        ((s.unit u).perform now s.tables c).2.1 ∧
      a = ((s.unit u).perform now s.tables c).2.2 := by
  obtain ⟨htables, hanswer, hunit⟩ := perform_unit h
  refine ⟨⟨hs.perform h, htables, ?_, ?_⟩, hanswer⟩
  · rw [hunit, if_pos rfl]
  · intro v hv
    rw [hunit, if_neg hv]

end Ledger.Store
