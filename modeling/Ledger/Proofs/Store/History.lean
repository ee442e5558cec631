import Ledger.Proofs.Store.Staged

namespace Ledger

/-- Whether a call is made on a unit of work that has begun. -/
def StoreCall.isOwn : StoreCall → Bool
  | lock _ | save _ | append _ | commit | rollback => true
  | _ => false

/-- The calls on a unit of work with their answers, the last one first. -/
abbrev History : Type :=
  List ((c : StoreCall) × c.Answer)

namespace History

/-- The version of a row when it was locked: the first lock of it that went through has returned the
stored row. -/
def lockVersion (id : AccountId) : History → Option Nat
  | [] => none
  | ⟨.lock id', .ok row⟩ :: earlier =>
      (lockVersion id earlier).or (if id' = id then some row.version else none)
  | _ :: earlier => lockVersion id earlier

/-- The copy of a row that was saved last. -/
def lastSaved (id : AccountId) : History → Option Account
  | [] => none
  | ⟨.save copy, .ok ()⟩ :: earlier => if copy.id = id then some copy else lastSaved id earlier
  | _ :: earlier => lastSaved id earlier

/-- The entries that were appended, in their order. -/
def appended : History → List NewTransaction
  | [] => []
  | ⟨.append new, .ok ()⟩ :: earlier => appended earlier ++ [new]
  | _ :: earlier => appended earlier

/-- Whether the unit was committed or rolled back. -/
def isClosed : History → Bool
  | [] => false
  | ⟨.commit, _⟩ :: _ | ⟨.rollback, _⟩ :: _ => true
  | _ :: earlier => isClosed earlier

/-- Whether a row is what a commit makes of a saved copy: one version on from when the row was
locked, and marked with the time. -/
def Writes (h : History) (now : Timestamp) (row : Account) : Prop :=
  ∃ copy version, h.lastSaved row.id = some copy ∧ h.lockVersion row.id = some version ∧
    row = { copy with version := version + 1, updatedAt := now }

end History

section Call

variable {s s' : Store} {u : UnitId} {now : Timestamp} {c : StoreCall} {a : c.Answer}

theorem UnitOfWork.perform_finished {work : UnitOfWork} (hfinished : work.finished = true)
    (hown : c.isOwn = true) (t : Tables) : work.perform now t c = (work, t, .error .closed) := by
  cases c with
  | lock id => simp only [UnitOfWork.perform, hfinished, if_true]
  | save row => simp only [UnitOfWork.perform, UnitOfWork.save, hfinished, if_true]
  | append new => simp only [UnitOfWork.perform, UnitOfWork.append, hfinished, if_true]
  | commit => simp only [UnitOfWork.perform, UnitOfWork.commit, hfinished, if_true]
  | rollback => simp only [UnitOfWork.perform, UnitOfWork.rollback, hfinished, if_true]
  | _ => cases hown

end Call

namespace History

variable {h : History} {t t' : Tables} {work : UnitOfWork} {now : Timestamp} {c : StoreCall}
  {e : StoreError} {id : AccountId}

@[simp] theorem lockVersion_error : lockVersion id (⟨c, .error e⟩ :: h) = lockVersion id h := by
  cases c <;> rfl

@[simp] theorem lastSaved_error : lastSaved id (⟨c, .error e⟩ :: h) = lastSaved id h := by
  cases c <;> rfl

@[simp] theorem appended_error : appended (⟨c, .error e⟩ :: h) = appended h := by
  cases c <;> rfl

/-- What a unit of work has kept of its history. -/
structure Reflects (h : History) (t : Tables) (work : UnitOfWork) : Prop where
  finished : work.finished = h.isClosed
  emptied : h.isClosed = true → work.rows = []
  ascending : work.rows.Pairwise (·.id < ·.id)
  row? : h.isClosed = false → ∀ id,
    work.row? id = (h.lockVersion id).map fun version => ⟨id, version, h.lastSaved id⟩
  entries : h.isClosed = false → work.entries = h.appended
  saved : ∀ id copy, h.lastSaved id = some copy → copy.id = id ∧ (h.lockVersion id).isSome = true
  found : ∀ id, (h.lockVersion id).isSome = true → (t.find? id).isSome = true

namespace Reflects

variable (hwork : h.Reflects t work)

include hwork

theorem mono (hrows : ∀ id, (t.find? id).isSome = true → (t'.find? id).isSome = true) :
    h.Reflects t' work :=
  { hwork with found := fun id hlocked => hrows id (hwork.found id hlocked) }

theorem holds_eq (hopen : h.isClosed = false) (id : AccountId) :
    work.holds id = (h.lockVersion id).isSome := by
  rw [UnitOfWork.holds_eq_isSome, hwork.row? hopen, Option.isSome_map]

theorem sound : work.Sound := by
  refine ⟨?_, fun hfinished => hwork.emptied (hwork.finished.symm.trans hfinished)⟩
  intro row hrow copy hcopy
  cases hclosed : h.isClosed with
  | true =>
      rw [hwork.emptied hclosed] at hrow
      cases hrow
  | false =>
      have hfound := (UnitOfWork.mem_rows_iff hwork.ascending).mp hrow
      rw [hwork.row? hclosed] at hfound
      obtain ⟨version, -, hversion⟩ := Option.map_eq_some_iff.mp hfound
      rw [← hversion] at hcopy
      exact (hwork.saved row.id copy hcopy).1

theorem refused (e : StoreError) (hclosed : isClosed (⟨c, .error e⟩ :: h) = isClosed h) :
    Reflects (⟨c, .error e⟩ :: h) t work where
  finished := hclosed ▸ hwork.finished
  emptied := hclosed ▸ hwork.emptied
  ascending := hwork.ascending
  row? := by simpa [hclosed] using hwork.row?
  entries := by simpa [hclosed] using hwork.entries
  saved := by simpa using hwork.saved
  found := by simpa using hwork.found

theorem closing {a : c.Answer} (hc : c = .commit ∨ c = .rollback)
    (hrows : ∀ id, (t.find? id).isSome = true → (t'.find? id).isSome = true) :
    Reflects (⟨c, a⟩ :: h) t' .closed := by
  have hfound : ∀ id, (h.lockVersion id).isSome = true → (t'.find? id).isSome = true :=
    fun id hlocked => hrows id (hwork.found id hlocked)
  rcases hc with rfl | rfl <;>
    exact ⟨rfl, fun _ => rfl, List.Pairwise.nil, fun hopen => (nomatch hopen),
      fun hopen => (nomatch hopen), hwork.saved, hfound⟩

theorem append (new : NewTransaction) :
    Reflects (⟨.append new, .ok ()⟩ :: h) t { work with entries := work.entries ++ [new] } where
  finished := hwork.finished
  emptied := hwork.emptied
  ascending := hwork.ascending
  row? := hwork.row?
  entries hclosed := congrArg (· ++ [new]) (hwork.entries hclosed)
  saved := hwork.saved
  found := hwork.found

theorem lock_again (hlocked : (h.lockVersion id).isSome = true) (row : Account) :
    Reflects (⟨.lock id, .ok row⟩ :: h) t work := by
  have hsame : ∀ id', lockVersion id' (⟨.lock id, .ok row⟩ :: h) = h.lockVersion id' := by
    intro id'
    obtain ⟨version, hversion⟩ := Option.isSome_iff_exists.mp hlocked
    show (h.lockVersion id').or (if id = id' then some row.version else none) = _
    split
    · rename_i hid
      rw [← hid, hversion, Option.some_or]
    · rw [Option.or_none]
  exact ⟨hwork.finished, hwork.emptied, hwork.ascending,
    fun hopen id' => (hwork.row? hopen id').trans (by rw [hsame]; rfl), hwork.entries,
    fun id' copy hsaved => by rw [hsame]; exact hwork.saved id' copy hsaved,
    fun id' => by rw [hsame]; exact hwork.found id'⟩

theorem lock (hopen : h.isClosed = false) (hfree : h.lockVersion id = none) {row : Account}
    (hrow : t.find? id = some row) :
    Reflects (⟨.lock id, .ok row⟩ :: h) t (work.hold row) := by
  have hid := Tables.id_of_find? hrow
  have hunheld : work.holds row.id = false := by rw [hwork.holds_eq hopen, hid, hfree]; rfl
  have hversion : ∀ id', lockVersion id' (⟨.lock id, .ok row⟩ :: h) =
      if id' = id then some row.version else h.lockVersion id' := by
    intro id'
    show (h.lockVersion id').or (if id = id' then some row.version else none) = _
    rcases Decidable.em (id' = id) with rfl | hne
    · rw [hfree, if_pos rfl, Option.none_or]
    · rw [if_neg hne, if_neg (Ne.symm hne), Option.or_none]
  have hunsaved : h.lastSaved id = none := by
    cases hsaved : h.lastSaved id with
    | none => rfl
    | some copy =>
        have hlocked := (hwork.saved id copy hsaved).2
        rw [hfree] at hlocked
        cases hlocked
  refine ⟨hwork.finished, fun hclosed => ?_, UnitOfWork.ascending_hold hwork.ascending hunheld,
    fun _ id' => ?_, hwork.entries, fun id' copy hsaved => ?_, fun id' hlocked => ?_⟩
  · cases hopen.symm.trans hclosed
  · rw [UnitOfWork.row?_hold hunheld, hversion, hid]
    split
    · rename_i hsame
      rw [hsame]
      show _ = some (⟨id, row.version, h.lastSaved id⟩ : LockedRow)
      rw [hunsaved]
    · exact hwork.row? hopen id'
  · obtain ⟨hcopy, hlocked⟩ := hwork.saved id' copy hsaved
    refine ⟨hcopy, ?_⟩
    rw [hversion]
    split
    · rfl
    · exact hlocked
  · rw [hversion] at hlocked
    split at hlocked
    · rename_i hsame
      rw [hsame, hrow]
      rfl
    · exact hwork.found id' hlocked

theorem save (hopen : h.isClosed = false) {copy : Account}
    (hlocked : (h.lockVersion copy.id).isSome = true) :
    Reflects (⟨.save copy, .ok ()⟩ :: h) t (work.save copy).1 := by
  have hheld : work.holds copy.id = true := by rw [hwork.holds_eq hopen, hlocked]
  have hfinished : work.finished = false := hwork.finished.trans hopen
  have hsaved : ∀ id, lastSaved id (⟨.save copy, .ok ()⟩ :: h) =
      if copy.id = id then some copy else h.lastSaved id := fun _ => rfl
  refine ⟨?_, fun hclosed => ?_, UnitOfWork.ascending_save hwork.ascending copy, fun _ id => ?_, ?_,
    fun id other hother => ?_, hwork.found⟩
  · rw [UnitOfWork.save_of_holds hfinished hheld]
    exact hwork.finished
  · cases hopen.symm.trans hclosed
  · rw [UnitOfWork.row?_save hfinished hheld, hwork.row? hopen, hsaved]
    show _ = (h.lockVersion id).map _
    rw [Option.map_map]
    refine Option.map_congr ?_
    intro version _
    simp only [Function.comp_apply]
    rcases Decidable.em (id = copy.id) with rfl | hne
    · rw [if_pos rfl, if_pos rfl]
    · rw [if_neg hne, if_neg (Ne.symm hne)]
  · rw [UnitOfWork.save_of_holds hfinished hheld]
    exact hwork.entries
  · rw [hsaved] at hother
    split at hother
    · rename_i hid
      cases hother
      exact ⟨hid, hid ▸ hlocked⟩
    · exact hwork.saved id other hother

theorem mem_staged (hopen : h.isClosed = false) {copy : Account} :
    copy ∈ work.staged ↔ ∃ saved version, h.lastSaved copy.id = some saved ∧
      h.lockVersion copy.id = some version ∧ copy = { saved with version } := by
  rw [UnitOfWork.mem_staged hwork.ascending]
  constructor
  · rintro ⟨row, saved, hrow, hsaved, rfl⟩
    rw [hwork.row? hopen] at hrow
    obtain ⟨version, hversion, hrow⟩ := Option.map_eq_some_iff.mp hrow
    rw [← hrow] at hsaved
    have hid : saved.id = row.id := (hwork.saved row.id saved hsaved).1
    refine ⟨saved, version, ?_, ?_, ?_⟩
    · rw [← hsaved, ← hid]
    · rw [← hversion, ← hid]
    · rw [← hrow]
  · rintro ⟨saved, version, hsaved, hversion, hcopy⟩
    refine ⟨⟨copy.id, version, some saved⟩, saved, ?_, rfl, hcopy⟩
    rw [hwork.row? hopen, hversion, hsaved]
    rfl

theorem mem_written (hopen : h.isClosed = false) {row : Account} :
    row ∈ (work.written now t).accounts ↔ h.Writes now row := by
  rw [UnitOfWork.written, List.mem_map]
  constructor
  · rintro ⟨copy, hcopy, rfl⟩
    obtain ⟨saved, version, hsaved, hversion, rfl⟩ := (hwork.mem_staged hopen).mp hcopy
    exact ⟨saved, version, hsaved, hversion, rfl⟩
  · rintro ⟨saved, version, hsaved, hversion, hrow⟩
    have hid : saved.id = row.id := by rw [hrow]
    refine ⟨{ saved with version }, (hwork.mem_staged hopen).mpr ?_, hrow.symm⟩
    exact ⟨saved, version, hid ▸ hsaved, hid ▸ hversion, rfl⟩

theorem find?_apply (hopen : h.isClosed = false) {row : Account} (hrow : h.Writes now row) :
    (work.apply now t).find? row.id = some row := by
  obtain ⟨copy, hcopy, rfl⟩ := List.mem_map.mp (hwork.mem_written hopen |>.mpr hrow)
  obtain ⟨saved, version, -, hversion, -⟩ := (hwork.mem_staged hopen).mp hcopy
  have hfound := hwork.found copy.id (by rw [hversion]; rfl)
  exact hwork.sound.find?_apply hwork.ascending hcopy hfound

/-- A call on a unit of work keeps up with the history. -/
theorem perform (hown : c.isOwn = true) (now : Timestamp) :
    Reflects (⟨c, (work.perform now t c).2.2⟩ :: h) (work.perform now t c).2.1
      (work.perform now t c).1 := by
  cases hclosed : h.isClosed with
  | true =>
      have hfinished := hwork.finished.trans hclosed
      rw [UnitOfWork.perform_finished hfinished hown]
      refine hwork.refused .closed ?_
      cases c with
      | commit => exact hclosed.symm
      | rollback => exact hclosed.symm
      | _ => rfl
  | false =>
      have hopen : work.finished = false := hwork.finished.trans hclosed
      cases c with
      | lock id =>
          simp only [UnitOfWork.perform, hopen, Bool.false_eq_true, if_false]
          split
          · rename_i hheld
            rw [hwork.holds_eq hclosed] at hheld
            cases hview : work.view t id with
            | ok row => exact hwork.lock_again hheld row
            | error e => exact hwork.refused e rfl
          · rename_i hheld
            rw [hwork.holds_eq hclosed, Bool.not_eq_true, Option.isSome_eq_false_iff,
              Option.isNone_iff_eq_none] at hheld
            cases hrow : t.account id with
            | ok row => exact hwork.lock hclosed hheld (Tables.find?_of_account hrow)
            | error e => exact hwork.refused e rfl
      | save copy =>
          simp only [UnitOfWork.perform]
          cases hheld : work.holds copy.id with
          | true =>
              have hlocked := (hwork.holds_eq hclosed copy.id).symm.trans hheld
              have hsave := hwork.save hclosed hlocked
              rw [UnitOfWork.save_of_holds hopen hheld] at hsave ⊢
              exact hsave
          | false =>
              rw [UnitOfWork.save_of_not_holds hopen hheld]
              exact hwork.refused _ rfl
      | append new =>
          have happend : work.append new =
              ({ work with entries := work.entries ++ [new] }, .ok ()) := by
            rw [UnitOfWork.append, if_neg (by simp [hopen])]
          simp only [UnitOfWork.perform, happend]
          exact hwork.append new
      | commit =>
          have hafter : (work.perform now t .commit).1 = .closed := by
            rw [UnitOfWork.perform, UnitOfWork.commit_fst, UnitOfWork.rollback,
              if_neg (by simp [hopen])]
          rw [hafter]
          refine hwork.closing (.inl rfl) fun id hfound => ?_
          rw [UnitOfWork.perform, UnitOfWork.find?_commit_isSome, hfound]
      | rollback =>
          simp only [UnitOfWork.perform, UnitOfWork.rollback, hopen, Bool.false_eq_true, if_false]
          exact hwork.closing (.inr rfl) fun _ hfound => hfound
      | _ => cases hown

end Reflects

end History

end Ledger
