import Ledger.Proofs.Store.Clients

namespace Ledger

namespace Tables

variable {t : Tables} {id : AccountId} {row : Account}

theorem find?_overwrite_of_ne (now : Timestamp) (h : id ≠ row.id) :
    (Clients.overwrite t now row).find? id = t.find? id := by
  unfold Clients.overwrite
  split
  · exact find?_replace_of_ne h
  · rfl

theorem find?_overwrite_isSome (t : Tables) (now : Timestamp) (row : Account) (id : AccountId) :
    ((Clients.overwrite t now row).find? id).isSome = (t.find? id).isSome := by
  unfold Clients.overwrite
  split
  · exact find?_replace_isSome _ _ _
  · rfl

end Tables

namespace UnitOfWork

variable {u : UnitOfWork} {t t' : Tables} {now : Timestamp} {id : AccountId} {row : Account}

/-- Every row that a unit holds is still at the version that it was locked at. -/
def Fresh (u : UnitOfWork) (t : Tables) : Prop :=
  ∀ locked ∈ u.rows, ∃ stored, t.find? locked.id = some stored ∧ stored.version = locked.version

theorem fresh_of_not_holds (h : ∀ id, u.holds id = false) (t : Tables) : u.Fresh t := by
  intro locked hlocked
  have hholds := holds_iff.mpr ⟨locked, hlocked, rfl⟩
  rw [h] at hholds
  cases hholds

theorem Fresh.mono (hu : u.Fresh t)
    (h : ∀ id row, u.holds id = true → t.find? id = some row → t'.find? id = some row) :
    u.Fresh t' := by
  intro locked hlocked
  obtain ⟨stored, hstored, hversion⟩ := hu locked hlocked
  exact ⟨stored, h _ _ (holds_iff.mpr ⟨locked, hlocked, rfl⟩) hstored, hversion⟩

theorem Fresh.hold (hu : u.Fresh t) (hrow : t.find? id = some row) : (u.hold row).Fresh t := by
  intro locked hlocked
  rcases (mem_insertRow _ _ _).mp hlocked with rfl | hbefore
  · exact ⟨row, by rw [Tables.id_of_find? hrow, hrow], rfl⟩
  · exact hu locked hbefore

theorem Fresh.save (hu : u.Fresh t) (copy : Account) : (u.save copy).1.Fresh t := by
  unfold UnitOfWork.save
  split
  · exact hu
  · split
    · intro locked hlocked
      obtain ⟨before, hbefore, rfl⟩ := List.mem_map.mp hlocked
      split
      · exact hu before hbefore
      · exact hu before hbefore
    · exact hu

theorem Fresh.append (hu : u.Fresh t) (new : NewTransaction) : (u.append new).1.Fresh t := by
  unfold UnitOfWork.append
  split
  · exact hu
  · exact hu

theorem Fresh.perform {c : StoreCall} (hu : u.Sound) (hfresh : u.Fresh t)
    (hc : c.isGradual = false) (now : Timestamp) :
    (u.perform now t c).1.Fresh (u.perform now t c).2.1 ∧
      (∀ id, (u.perform now t c).1.holds id = true → u.holds id = true) ∧
      ∀ id row, t.find? id = some row → (u.perform now t c).2.1.find? id = some row := by
  cases c with
  | begin =>
      exact ⟨fresh_of_not_holds (fun _ => rfl) t, fun _ h => absurd h Bool.false_ne_true,
        fun _ _ h => h⟩
  | save row =>
      exact ⟨hfresh.save row, fun _ h => (holds_save row).symm.trans h, fun _ _ h => h⟩
  | append new =>
      exact ⟨hfresh.append new, fun _ h => (holds_append new).symm.trans h, fun _ _ h => h⟩
  | rollback =>
      refine ⟨fresh_of_not_holds (holds_rollback hu) t, ?_, fun _ _ h => h⟩
      intro id h
      rw [UnitOfWork.perform, holds_rollback hu] at h
      cases h
  | insertAccount new =>
      have hkept : ∀ id row, t.find? id = some row → (t.insert now new).find? id = some row :=
        fun _ _ h => Tables.find?_insert_of_find? now new h
      exact ⟨hfresh.mono fun id row _ => hkept id row, fun _ h => h, hkept⟩
  | insertTransaction new => exact ⟨hfresh, fun _ h => h, fun _ _ h => h⟩
  | ownedAccount | account | accountsOf | query | transaction =>
      exact ⟨hfresh, fun _ h => h, fun _ _ h => h⟩
  | lock | saveAccount | commit => cases hc

end UnitOfWork

namespace Clients

variable {s s' : Clients} {k : UnitId} {old new : Activity} {work : UnitOfWork} {t : Tables}
  {store : Store} {id : AccountId} {row : Account}

/-- The lock of a row is held at most once, by a unit of work or by what a client is in the middle
of; a row that is locked past the units is there; and the rows that a unit holds are at the versions
that they were locked at, unless the unit has just been committed. -/
structure Sound (s : Clients) : Prop where
  store : s.store.Sound
  exclusive : ∀ (j k : UnitId) (a b : Activity) id, s.activities[j]? = some a →
    s.activities[k]? = some b → a.guards id = true → b.guards id = true → j = k
  apart : ∀ (k : UnitId) (a : Activity) id, s.activities[k]? = some a → a.guards id = true →
    ∀ u, (s.store.unit u).holds id = false
  found : ∀ (k : UnitId) (a : Activity) id, s.activities[k]? = some a → a.guards id = true →
    (s.store.tables.find? id).isSome = true
  locking : ∀ (k : UnitId) id, s.activities[k]? = some (.locking id) →
    (s.store.unit k).finished = false
  fresh : ∀ k : UnitId, s.activities[k]? ≠ some .committed → (s.store.unit k).Fresh s.store.tables

theorem sound_start (clients : Nat) (t : Tables) : (start clients t).Sound := by
  have hidle : ∀ (k : UnitId) (a : Activity),
      (start clients t).activities[k]? = some a → a = .idle :=
    fun _ _ h => List.eq_of_mem_replicate (List.mem_of_getElem? h)
  refine ⟨Store.sound_empty t, ?_, ?_, ?_, ?_, ?_⟩
  · intro j k a b id ha _ hguards _
    rw [hidle j a ha] at hguards
    cases hguards
  · intro k a id ha hguards
    rw [hidle k a ha] at hguards
    cases hguards
  · intro k a id ha hguards
    rw [hidle k a ha] at hguards
    cases hguards
  · intro k id h
    cases hidle k _ h
  · exact fun k _ => UnitOfWork.fresh_of_not_holds (fun _ => rfl) t

theorem Sound.free_of_isFree (hs : s.Sound) (h : s.isFree id = true) :
    (∀ u, (s.store.unit u).holds id = false) ∧
      ∀ (j : UnitId) (a : Activity), s.activities[j]? = some a → a.guards id = false := by
  obtain ⟨hunlocked, hunguarded⟩ := Bool.and_eq_true_iff.mp h
  refine ⟨?_, ?_⟩
  · intro u
    cases hholds : (s.store.unit u).holds id with
    | false => rfl
    | true =>
        rw [hs.store.isLocked_iff.mpr ⟨u, hholds⟩] at hunlocked
        cases hunlocked
  · intro j a ha
    have hguards := List.all_eq_true.mp hunguarded a (List.mem_of_getElem? ha)
    simpa using hguards

theorem Sound.ne_of_isFree (hs : s.Sound) (hfree : s.isFree id = true) {u : UnitId}
    {other : AccountId} (hholds : (s.store.unit u).holds other = true) : id ≠ other := by
  rintro rfl
  rw [(hs.free_of_isFree hfree).1 u] at hholds
  cases hholds

theorem Sound.ne_of_guards (hs : s.Sound) (hk : s.activities[k]? = some old)
    (hguards : old.guards id = true) {u : UnitId} {other : AccountId}
    (hholds : (s.store.unit u).holds other = true) : id ≠ other := by
  rintro rfl
  rw [hs.apart k old id hk hguards u] at hholds
  cases hholds

/-- What a move does: one client goes on to another activity, its unit to another state, and the
tables to others. Locks are taken only where nobody has them, and no row is changed that another
unit holds. -/
theorem Sound.moved (hs : s.Sound) (hk : s.activities[k]? = some old)
    (hmoves : s.store.Moves store k work t)
    (taken : ∀ id, new.guards id = true → old.guards id = true ∨
      s.isFree id = true ∧ (s.store.tables.find? id).isSome = true)
    (held : ∀ id, work.holds id = true → new.guards id = false ∧
      ((s.store.unit k).holds id = true ∨ old.guards id = true))
    (kept : ∀ id, (s.store.tables.find? id).isSome = true → (t.find? id).isSome = true)
    (frame : ∀ j, j ≠ k → ∀ id row, (s.store.unit j).holds id = true →
      s.store.tables.find? id = some row → t.find? id = some row)
    (locking : ∀ id, new = .locking id → work.finished = false)
    (fresh : new ≠ .committed → work.Fresh t) : (s.become k new store).Sound := by
  have hlt : k < s.activities.length := (List.getElem?_eq_some_iff.mp hk).1
  have hself : (s.become k new store).activities[k]? = some new := activity_become hlt new store
  have hother : ∀ {j : UnitId}, j ≠ k → (s.become k new store).activities[j]? = s.activities[j]? :=
    fun h => List.getElem?_set_ne h.symm
  have hown : ∀ {j : UnitId} {a : Activity} {id : AccountId}, j ≠ k →
      s.activities[j]? = some a → a.guards id = true → new.guards id = false := by
    intro j a id hj ha hguards
    cases hnew : new.guards id with
    | false => rfl
    | true =>
        rcases taken id hnew with hold | ⟨hfree, -⟩
        · exact absurd (hs.exclusive j k a old id ha hk hguards hold) hj
        · rw [(hs.free_of_isFree hfree).2 j a ha] at hguards
          cases hguards
  have hactivity : ∀ {j : UnitId} {a : Activity}, (s.become k new store).activities[j]? = some a →
      j = k ∧ a = new ∨ j ≠ k ∧ s.activities[j]? = some a := by
    intro j a ha
    rcases Decidable.em (j = k) with rfl | hj
    · rw [hself] at ha
      exact .inl ⟨rfl, (Option.some.inj ha).symm⟩
    · exact .inr ⟨hj, hother hj ▸ ha⟩
  have hunit : ∀ u, store.unit u = if u = k then work else s.store.unit u := by
    intro u
    split
    · rename_i hu
      rw [hu, hmoves.self]
    · rename_i hu
      exact hmoves.other u hu
  refine ⟨hmoves.sound, ?_, ?_, ?_, ?_, ?_⟩
  · intro i j a b id ha hb hguards hguards'
    rcases hactivity ha with ⟨rfl, rfl⟩ | ⟨hi, ha'⟩ <;>
      rcases hactivity hb with ⟨rfl, rfl⟩ | ⟨hj, hb'⟩
    · rfl
    · rw [hown hj hb' hguards'] at hguards
      cases hguards
    · rw [hown hi ha' hguards] at hguards'
      cases hguards'
    · exact hs.exclusive i j a b id ha' hb' hguards hguards'
  · intro j a id ha hguards u
    show (store.unit u).holds id = false
    rw [hunit]
    cases hholds : (if u = k then work else s.store.unit u).holds id with
    | false => rfl
    | true =>
        split at hholds
        · obtain ⟨hnew, hbefore⟩ := held id hholds
          rcases hactivity ha with ⟨rfl, rfl⟩ | ⟨hj, ha⟩
          · rw [hnew] at hguards
            cases hguards
          · rcases hbefore with hheld | hold
            · rw [hs.apart j a id ha hguards k] at hheld
              cases hheld
            · exact absurd (hs.exclusive j k a old id ha hk hguards hold) hj
        · rename_i hu
          rcases hactivity ha with ⟨rfl, rfl⟩ | ⟨hj, ha⟩
          · rcases taken id hguards with hold | ⟨hfree, -⟩
            · rw [hs.apart _ old id hk hold u] at hholds
              cases hholds
            · rw [(hs.free_of_isFree hfree).1 u] at hholds
              cases hholds
          · rw [hs.apart j a id ha hguards u] at hholds
            cases hholds
  · intro j a id ha hguards
    show (store.tables.find? id).isSome = true
    rw [hmoves.tables]
    refine kept id ?_
    rcases hactivity ha with ⟨rfl, rfl⟩ | ⟨hj, ha⟩
    · rcases taken id hguards with hold | ⟨-, hfound⟩
      · exact hs.found _ old id hk hold
      · exact hfound
    · exact hs.found j a id ha hguards
  · intro j id ha
    show (store.unit j).finished = false
    rw [hunit]
    rcases hactivity ha with ⟨rfl, hnew⟩ | ⟨hj, ha⟩
    · rw [if_pos rfl]
      exact locking id hnew.symm
    · rw [if_neg hj]
      exact hs.locking j id ha
  · intro j hj
    show (store.unit j).Fresh store.tables
    rw [hunit, hmoves.tables]
    rcases Decidable.em (j = k) with rfl | hjk
    · rw [hself] at hj
      rw [if_pos rfl]
      exact fresh fun h => hj (congrArg some h)
    · rw [hother hjk] at hj
      rw [if_neg hjk]
      exact (hs.fresh j hj).mono fun id row => frame j hjk id row

section Step

variable (hs : s.Sound)

include hs

theorem Sound.call {c : StoreCall} {answer : c.Answer} {now : Timestamp}
    (hk : s.activities[k]? = some .idle) (hc : c.isGradual = false)
    (hperform : s.store.perform k now c = some (store, answer)) :
    (s.become k .idle store).Sound := by
  obtain ⟨hmoves, -⟩ := hs.store.perform_eq hperform
  have hfresh : (s.store.unit k).Fresh s.store.tables := hs.fresh k (by simp [hk])
  obtain ⟨hafter, hheld, hkept⟩ := hfresh.perform (hs.store.units k) hc now
  refine hs.moved hk hmoves ?_ ?_ ?_ ?_ ?_ (fun _ => hafter)
  · exact fun _ h => nomatch h
  · exact fun id h => ⟨rfl, .inl (hheld id h)⟩
  · intro id h
    obtain ⟨row, hrow⟩ := Option.isSome_iff_exists.mp h
    rw [hkept id row hrow]
    rfl
  · exact fun _ _ id row _ h => hkept id row h
  · exact fun _ h => nomatch h

theorem Sound.lock (hk : s.activities[k]? = some .idle)
    (hopen : (s.store.unit k).finished = false) (hlock : s.canLock id = true) :
    (s.become k (.locking id) s.store).Sound := by
  obtain ⟨hfound, hfree⟩ := Bool.and_eq_true_iff.mp hlock
  refine hs.moved hk (hs.store.moves_self k) ?_ ?_ (fun _ h => h) (fun _ _ _ _ _ h => h)
    (fun _ _ => hopen) (fun _ => hs.fresh k (by simp [hk]))
  · intro id' h
    obtain rfl : id = id' := of_decide_eq_true h
    exact .inr ⟨hfree, hfound⟩
  · exact fun _ h => ⟨decide_eq_false (hs.ne_of_isFree hfree h), .inl h⟩

theorem Sound.read (hk : s.activities[k]? = some (.locking id))
    (hrow : s.store.tables.find? id = some row) :
    (s.become k .idle (s.store.setUnit k ((s.store.unit k).hold row))).Sound := by
  have hid := Tables.id_of_find? hrow
  have hguards : (Activity.locking id).guards id = true := decide_eq_true rfl
  have hunlocked : s.store.isLocked id = false := by
    cases hlocked : s.store.isLocked id with
    | false => rfl
    | true =>
        obtain ⟨u, hu⟩ := hs.store.isLocked_iff.mp hlocked
        rw [hs.apart k _ id hk hguards u] at hu
        cases hu
  have hmoves := hs.store.moves_setUnit (u := k)
    ((hs.store.units k).hold (hs.locking k id hk) row) (by
      intro id' h
      rcases (UnitOfWork.holds_hold row).mp h with rfl | hbefore
      · exact .inr (hid ▸ hunlocked)
      · exact .inl hbefore)
  refine hs.moved hk hmoves (fun _ h => nomatch h) ?_ (fun _ h => h) (fun _ _ _ _ _ h => h)
    (fun _ h => nomatch h) (fun _ => (hs.fresh k (by simp [hk])).hold hrow)
  intro id' h
  refine ⟨rfl, ?_⟩
  rcases (UnitOfWork.holds_hold row).mp h with rfl | hbefore
  · exact .inr (decide_eq_true hid.symm)
  · exact .inl hbefore

theorem Sound.save (hk : s.activities[k]? = some .idle) (hlock : s.canLock row.id = true) :
    (s.become k (.saving row) s.store).Sound := by
  obtain ⟨hfound, hfree⟩ := Bool.and_eq_true_iff.mp hlock
  refine hs.moved hk (hs.store.moves_self k) ?_ ?_ (fun _ h => h) (fun _ _ _ _ _ h => h)
    (fun _ h => nomatch h) (fun _ => hs.fresh k (by simp [hk]))
  · intro id h
    obtain rfl : row.id = id := of_decide_eq_true h
    exact .inr ⟨hfree, hfound⟩
  · exact fun _ h => ⟨decide_eq_false (hs.ne_of_isFree hfree h), .inl h⟩

theorem Sound.write (hk : s.activities[k]? = some (.saving row)) (now : Timestamp) :
    (s.become k (.saved row.id)
      { s.store with tables := overwrite s.store.tables now row }).Sound := by
  have hguards : (Activity.saving row).guards row.id = true := decide_eq_true rfl
  have hframe : ∀ u id found, (s.store.unit u).holds id = true →
      s.store.tables.find? id = some found →
      (overwrite s.store.tables now row).find? id = some found := by
    intro u id found hholds hfound
    rw [Tables.find?_overwrite_of_ne now (hs.ne_of_guards hk hguards hholds).symm, hfound]
  refine hs.moved hk (hs.store.moves_tables k _) (fun _ h => .inl h) ?_ ?_
    (fun j _ => hframe j) (fun _ h => nomatch h) ?_
  · exact fun _ h => ⟨decide_eq_false (hs.ne_of_guards hk hguards h), .inl h⟩
  · intro id h
    rw [Tables.find?_overwrite_isSome, h]
  · exact fun _ => (hs.fresh k (by simp [hk])).mono (hframe k)

theorem Sound.unlock (hk : s.activities[k]? = some (.saved id)) :
    (s.become k .idle s.store).Sound :=
  hs.moved hk (hs.store.moves_self k) (fun _ h => nomatch h) (fun _ h => ⟨rfl, .inl h⟩)
    (fun _ h => h) (fun _ _ _ _ _ h => h) (fun _ h => nomatch h)
    (fun _ => hs.fresh k (by simp [hk]))

theorem Sound.commit (hk : s.activities[k]? = some .idle) (now : Timestamp) :
    (s.become k .committed (s.store.write k now).1).Sound := by
  refine hs.moved hk (hs.store.moves_tables k _) (fun _ h => nomatch h)
    (fun _ h => ⟨rfl, .inl h⟩) ?_ ?_ (fun _ h => nomatch h) (fun h => absurd rfl h)
  · intro id h
    rw [UnitOfWork.find?_commit_isSome, h]
  · intro j hj id found hholds hfound
    rw [UnitOfWork.find?_commit_of_not_holds (hs.store.units k), hfound]
    cases hother : (s.store.unit k).holds id with
    | false => rfl
    | true => exact absurd (hs.store.exclusive j k id hholds hother) hj

theorem Sound.release (hk : s.activities[k]? = some .committed) :
    (s.become k .idle (s.store.release k)).Sound := by
  have hnone := UnitOfWork.holds_rollback (hs.store.units k)
  refine hs.moved hk (hs.store.moves_release k) (fun _ h => nomatch h) ?_ (fun _ h => h)
    (fun _ _ _ _ _ h => h) (fun _ h => nomatch h)
    (fun _ => UnitOfWork.fresh_of_not_holds hnone _)
  intro id h
  rw [hnone] at h
  cases h

theorem Sound.drop (hk : s.activities[k]? = some .idle) :
    (s.become k .idle (s.store.drop k)).Sound :=
  hs.moved hk (hs.store.moves_drop k) (fun _ h => nomatch h) (fun _ h => nomatch h)
    (fun _ h => h) (fun _ _ _ _ _ h => h) (fun _ h => nomatch h)
    (fun _ => UnitOfWork.fresh_of_not_holds (fun _ => rfl) _)

theorem Sound.step {m : Move} (h : s.step k m = some s') : s'.Sound := by
  unfold Clients.step at h
  split at h
  · rename_i hk
    split at h
    · cases h
    · rename_i hc
      obtain ⟨⟨store, answer⟩, hperform, rfl⟩ := Option.map_eq_some_iff.mp h
      exact hs.call hk (by simpa using hc) hperform
  · rename_i hk
    split at h
    · rename_i hguard
      cases h
      simp only [Bool.and_eq_true, Bool.not_eq_true'] at hguard
      exact hs.lock hk hguard.1.1 hguard.2
    · cases h
  · rename_i hk
    obtain ⟨row, hrow, rfl⟩ := Option.map_eq_some_iff.mp h
    exact hs.read hk hrow
  · rename_i hk
    split at h
    · rename_i hlock
      cases h
      exact hs.save hk hlock
    · cases h
  · rename_i hk
    cases h
    exact hs.write hk _
  · rename_i hk
    cases h
    exact hs.unlock hk
  · rename_i hk
    cases h
    exact hs.commit hk _
  · rename_i hk
    cases h
    exact hs.release hk
  · rename_i hk
    cases h
    exact hs.drop hk
  · cases h

theorem Sound.run {moves : List (UnitId × Move)} (h : s.run moves = some s') : s'.Sound := by
  induction moves generalizing s with
  | nil =>
      cases h
      exact hs
  | cons move rest ih =>
      obtain ⟨s₁, hstep, hrun⟩ := run_cons h
      exact ih (hs.step hstep) hrun

end Step

/-- However clients use a store, no two units of work hold the same row, every row that a unit holds
is at the version that the unit has locked it at, until the unit is committed, and a commit of an
open unit goes through. -/
theorem commit_never_conflicts {clients : Nat} {moves : List (UnitId × Move)}
    (hrun : (start clients t).run moves = some s) :
    (∀ u v id, (s.store.unit u).holds id = true → (s.store.unit v).holds id = true → u = v) ∧
    (∀ u : UnitId, s.activities[u]? ≠ some .committed → ∀ locked ∈ (s.store.unit u).rows,
      ∃ stored, s.store.tables.find? locked.id = some stored ∧
        stored.version = locked.version) ∧
    ∀ (u : UnitId) now, s.activities[u]? = some .idle → (s.store.unit u).finished = false →
      ∃ store committed, s.store.perform u now .commit = some (store, .ok committed) := by
  have hs := (sound_start clients t).run hrun
  refine ⟨hs.store.exclusive, hs.fresh, ?_⟩
  intro u now hidle hopen
  have hfresh := hs.fresh u (by simp [hidle])
  have hcommit : (s.store.unit u).commit now s.store.tables = _ :=
    UnitOfWork.commit_of_fresh hopen hfresh
  refine ⟨(s.store.write u now).1.release u, (s.store.unit u).written now s.store.tables, ?_⟩
  rw [Store.perform_commit, Store.write, hcommit]

/-- A unit of work has locked and saved a row that another client would write directly: the other
client waits, and the commit goes through. -/
theorem commit_never_conflicts_saved :
    ∃ s, (start 2 {}).run
        [(0, .call (.insertAccount ⟨1, "savings", "USD", 0, .active⟩) .epoch),
          (0, .call .begin .epoch), (0, .lock 1), (0, .read),
          (0, .call (.save ⟨1, 1, "savings", "USD", .cents 5, .active, 7, .epoch, .epoch⟩) .epoch)] =
        some s ∧
      s.step 1 (.save ⟨1, 1, "current", "USD", 0, .active, 0, .epoch, .epoch⟩) = none ∧
      ∃ store committed, s.store.perform 0 .epoch .commit = some (store, .ok committed) := by
  have hseen : ((start 2 {}).run
        [(0, .call (.insertAccount ⟨1, "savings", "USD", 0, .active⟩) .epoch),
          (0, .call .begin .epoch), (0, .lock 1), (0, .read),
          (0, .call (.save ⟨1, 1, "savings", "USD", .cents 5, .active, 7, .epoch, .epoch⟩)
            .epoch)]).map (fun s =>
      (s.step 1 (.save ⟨1, 1, "current", "USD", 0, .active, 0, .epoch, .epoch⟩),
        s.activities[0]?, (s.store.unit 0).finished)) = some (none, some .idle, false) := by
    decide +kernel
  obtain ⟨s, hrun, hseen⟩ := Option.map_eq_some_iff.mp hseen
  simp only [Prod.mk.injEq] at hseen
  obtain ⟨-, -, hcommits⟩ := commit_never_conflicts hrun
  exact ⟨s, hrun, hseen.1, hcommits 0 .epoch hseen.2.1 hseen.2.2⟩

end Clients

end Ledger
