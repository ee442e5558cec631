import Ledger.Proofs.Call.Alone

namespace Ledger

namespace UnitOfWork

variable {u : UnitOfWork} {t : Tables} {c : StoreCall} {id : AccountId}

theorem perform_tentative (hc : c.isTentative = true) (now : Timestamp) :
    (u.perform now t c).2.1 = t := by
  cases c with
  | lock id =>
      simp only [perform]
      split
      · rfl
      · split
        · rfl
        · split <;> rfl
  | ownedAccount | account | begin | save | append => rfl
  | _ => cases hc

theorem perform_now (hc : c.isTentative = true) (now now' : Timestamp) :
    u.perform now t c = u.perform now' t c := by
  cases c with
  | ownedAccount | account | begin | lock | save | append => rfl
  | _ => cases hc

theorem holds_perform (hc : c.isTentative = true) (hbegin : c ≠ .begin) {now : Timestamp}
    (h : u.holds id = true) : (u.perform now t c).1.holds id = true := by
  cases c with
  | begin => exact absurd rfl hbegin
  | lock id' =>
      simp only [perform]
      split
      · exact h
      · split
        · exact h
        · split
          · exact h
          · exact (holds_hold _).mpr (.inr h)
  | save row => exact (holds_save row).trans h
  | append new => exact (holds_append new).trans h
  | ownedAccount | account => exact h
  | _ => cases hc

end UnitOfWork

namespace Work

variable {α : Type} {t t' : Tables} {u : UnitOfWork} {start p : Work α} {now : Timestamp}
  {begun : Bool} {found : List AccountId} {c : StoreCall} {next : c.Answer → Work α}

/-- From its start the work gets to a later point and state of its unit by tentative calls, each
answered from the given tables. -/
inductive Reaches (t : Tables) (start : Work α) : Work α → UnitOfWork → Prop
  | start : Reaches t start start .closed
  | call {c : StoreCall} {next : c.Answer → Work α} {u : UnitOfWork} (now : Timestamp)
      (before : Reaches t start (.call c next) u) (tentative : c.isTentative = true) :
      Reaches t start (next (u.perform now t c).2.2) (u.perform now t c).1

theorem Reaches.exec (h : Reaches t start p u) (now : Timestamp) :
    Procedure.exec now start .closed t = Procedure.exec now p u t := by
  induction h with
  | start => rfl
  | call now' _ tentative ih =>
      rw [ih, Procedure.exec_call, UnitOfWork.perform_tentative tentative,
        UnitOfWork.perform_now tentative now now']

theorem Reaches.exec_of_done {result : Except LedgerError α}
    (h : Reaches t start (.call c next) u)
    (hdone : next (u.perform now t c).2.2 = .done result) :
    (Procedure.exec now start .closed t).2 = ((u.perform now t c).2.1, result) := by
  rw [h.exec now, Procedure.exec_call, hdone, Procedure.exec_done]

theorem Reaches.orderly (hstart : Orderly false [] start) (h : Reaches t start p u) :
    ∃ begun found, Orderly begun found p ∧ (∀ id ∈ found, ∃ row, t.find? id = some row) ∧
      (begun = false → u = .closed) := by
  induction h with
  | start => exact ⟨false, [], hstart, by simp, fun _ => rfl⟩
  | @call c next u now _ tentative ih =>
      obtain ⟨begun, found, horderly, hfound, hclosed⟩ := ih
      have hdone : ∀ p : Work α, Orderly true found p → ∃ begun found, Orderly begun found p ∧
          (∀ id ∈ found, ∃ row, t.find? id = some row) ∧
          (begun = false → (u.perform now t c).1 = .closed) :=
        fun p hp => ⟨true, found, hp, hfound, fun h => by cases h⟩
      have hfind : ∀ {id : AccountId} {row : Account}, t.find? id = some row →
          ∀ id' ∈ id :: found, ∃ row, t.find? id' = some row := by
        intro id row hrow id' hmem
        rcases List.mem_cons.mp hmem with rfl | hmem
        · exact ⟨row, hrow⟩
        · exact hfound id' hmem
      cases horderly with
      | @ownedAccount _ owner id _ failed _ rest =>
          cases hanswer : t.ownedAccount owner id with
          | ok row =>
              have hrow := (Tables.find?_of_ownedAccount hanswer).1
              simp only [UnitOfWork.perform, hanswer]
              exact ⟨false, id :: found, rest row, hfind hrow, hclosed⟩
          | error e =>
              obtain ⟨e', he, hrefuse⟩ := failed e
              refine hdone _ ?_
              simp only [UnitOfWork.perform, hanswer, hrefuse]
              exact .done (proper_error he)
      | @account _ id _ failed _ rest =>
          cases hanswer : t.account id with
          | ok row =>
              simp only [UnitOfWork.perform, hanswer]
              exact ⟨false, id :: found, rest row, hfind (Tables.find?_of_account hanswer), hclosed⟩
          | error e =>
              obtain ⟨e', he, hrefuse⟩ := failed e
              refine hdone _ ?_
              simp only [UnitOfWork.perform, hanswer, hrefuse]
              exact .done (proper_error he)
      | begin _ rest => exact hdone _ rest
      | lock _ failed rest =>
          refine hdone _ ?_
          cases (u.perform now t (.lock _)).2.2 with
          | ok row => exact rest row
          | error e => exact (failed e).orderly
      | save failed rest =>
          refine hdone _ ?_
          cases (u.perform now t (.save _)).2.2 with
          | ok => exact rest
          | error e => exact (failed e).orderly
      | append failed rest =>
          refine hdone _ ?_
          cases (u.perform now t (.append _)).2.2 with
          | ok => exact rest
          | error e => exact (failed e).orderly
      | rollback proper => cases tentative
      | last _ failed rest =>
          refine hdone _ ?_
          cases (u.perform now t c).2.2 with
          | ok value =>
              obtain ⟨result, hproper, hresult⟩ := rest value
              exact hresult ▸ .done hproper
          | error e =>
              obtain ⟨e', he, hrefuse⟩ := failed e
              exact hrefuse ▸ .done (proper_error he)

theorem Orderly.perform_congr (h : Orderly begun found (.call c next))
    (htentative : c.isTentative = true) (hfound : ∀ id ∈ found, ∃ row, t.find? id = some row)
    (hpersists : t.Persists t')
    (hheld : ∀ id, (u.perform now t c).1.holds id = true → t'.find? id = t.find? id)
    (hgoes : ∀ result, next (u.perform now t c).2.2 ≠ .done result) :
    next (u.perform now t' c).2.2 = next (u.perform now t c).2.2 ∧
      (u.perform now t' c).1 = (u.perform now t c).1 := by
  have hfailed : ∀ a : c.Answer, (u.perform now t c).2.2 = a →
      ¬∃ e, e.kind ≠ .publishFailure ∧ next a = (refuse e : Work α) := by
    rintro a ha ⟨e, -, hrefuse⟩
    exact hgoes _ (ha ▸ hrefuse)
  cases h with
  | @ownedAccount _ owner id _ failed same _ =>
      cases hanswer : t.ownedAccount owner id with
      | error e => exact absurd (failed e) (hfailed _ hanswer)
      | ok row =>
          obtain ⟨hrow, howner⟩ := Tables.find?_of_ownedAccount hanswer
          obtain ⟨row', hrow', huser, hcurrency⟩ := hpersists id row hrow
          have hanswer' := Tables.ownedAccount_of_find? hrow' (huser.trans howner)
          simp only [UnitOfWork.perform, hanswer, hanswer']
          exact ⟨same row' row hcurrency, trivial⟩
  | @account _ id _ failed same _ =>
      cases hanswer : t.account id with
      | error e => exact absurd (failed e) (hfailed _ hanswer)
      | ok row =>
          obtain ⟨row', hrow', -, hcurrency⟩ :=
            hpersists id row (Tables.find?_of_account hanswer)
          simp only [UnitOfWork.perform, hanswer, Tables.account_of_find? hrow']
          exact ⟨same row' row hcurrency, trivial⟩
  | @lock _ id _ known _ _ =>
      obtain ⟨row, hrow⟩ := hfound id known
      have hsame : u.finished = false → t'.account id = t.account id := by
        intro hopen
        have hholds : (u.perform now t (.lock id)).1.holds id = true := by
          simp only [UnitOfWork.perform, hopen, Bool.false_eq_true, if_false]
          split
          · assumption
          · simp only [Tables.account_of_find? hrow]
            exact (UnitOfWork.holds_hold row).mpr (.inl (Tables.id_of_find? hrow).symm)
        simp only [Tables.account, hheld id hholds]
      cases hfinished : u.finished with
      | true => simp only [UnitOfWork.perform, hfinished, if_true, and_self]
      | false =>
          have hperform : u.perform now t' (.lock id) =
              ((u.perform now t (.lock id)).1, t', (u.perform now t (.lock id)).2.2) := by
            simp only [UnitOfWork.perform, hfinished, Bool.false_eq_true, if_false,
              UnitOfWork.view, hsame hfinished]
            split
            · rfl
            · cases t.account id <;> rfl
          rw [hperform]
          exact ⟨rfl, rfl⟩
  | begin | save | append => exact ⟨rfl, rfl⟩
  | rollback => cases htentative
  | last _ failed rest =>
      cases hanswer : (u.perform now t c).2.2 with
      | ok value =>
          obtain ⟨result, -, hresult⟩ := rest value
          exact absurd hresult (hanswer ▸ hgoes result)
      | error e => exact absurd (failed e) (hfailed _ hanswer)

/-- What a unit has done under the rows that it holds stays right whatever others write. -/
theorem Reaches.mono (hstart : Orderly false [] start) (hpersists : t.Persists t')
    (h : Reaches t start p u) (hgoes : ∀ result, p ≠ .done result)
    (hheld : ∀ id, u.holds id = true → t'.find? id = t.find? id) : Reaches t' start p u := by
  induction h with
  | start => exact .start
  | @call c next u now before tentative ih =>
      obtain ⟨begun, found, horderly, hfound, hclosed⟩ := before.orderly hstart
      have hbefore : Reaches t' start (.call c next) u := by
        refine ih (fun _ h => by cases h) ?_
        intro id hid
        by_cases hbegin : c = .begin
        · have hnew : u = .closed := by
            subst hbegin
            refine hclosed ?_
            cases horderly <;> first | rfl | contradiction
          rw [hnew] at hid
          cases hid
        · exact hheld id (UnitOfWork.holds_perform tentative hbegin hid)
      obtain ⟨hnext, hunit⟩ :=
        horderly.perform_congr tentative hfound hpersists hheld hgoes
      rw [← hnext, ← hunit]
      exact .call now hbefore tentative

theorem Reaches.exists_of_holds (h : Reaches t start p u) {id : AccountId}
    (hheld : u.holds id = true) : ∃ row, t.find? id = some row := by
  induction h with
  | start => cases hheld
  | @call c next u now before tentative ih =>
      cases c with
      | lock id' =>
          simp only [UnitOfWork.perform] at hheld
          split at hheld
          · exact ih hheld
          · split at hheld
            · exact ih hheld
            · split at hheld
              · exact ih hheld
              · rename_i row hrow
                rcases (UnitOfWork.holds_hold row).mp hheld with hid | hbefore
                · have hfind := Tables.find?_of_account hrow
                  exact ⟨row, by rw [hid, Tables.id_of_find? hfind, hfind]⟩
                · exact ih hbefore
      | begin => cases hheld
      | save row => exact ih ((UnitOfWork.holds_save row).symm.trans hheld)
      | append new => exact ih ((UnitOfWork.holds_append new).symm.trans hheld)
      | ownedAccount | account => exact ih hheld
      | _ => cases tentative

end Work

end Ledger
