import Ledger.Proofs.Call.Length
import Ledger.Proofs.Concurrent.Outcome
import Mathlib.Algebra.Order.BigOperators.Group.Finset

/-!
Calls come to an end: each of them makes a bounded number of steps, whatever the others do. A step
of a call takes one from what is left to it, and leaves the others what they have.
-/

namespace Ledger.Concurrent

variable {config : Config} {w w' : World} {actions : List Action} {s s' : Store} {k : CallId}
  {c : Call} {m : Move} {stage : Stage} {n : Nat}

/-- A call that is over after so many steps at the most. -/
def Stage.Within (n : Nat) : Stage → Prop
  | working p => ∃ steps, steps + 2 ≤ n ∧ p.Within steps
  | releasing p => ∃ steps, steps + 3 ≤ n ∧ p.Within steps
  | announcing .. => 1 ≤ n
  | _ => True

def Action.isInvocation : Action → Bool
  | .invoke _ => true
  | .move .. => false

theorem within_answer {request : StoreCall} {next : request.Answer → Work Reply} {steps : Nat}
    (h : Work.Within steps (.call request next)) (a : request.Answer) :
    ∃ rest, rest + 1 ≤ steps ∧ Work.Within rest (next a) := by
  cases h with
  | commit rest => exact ⟨_, Nat.le_succ _, rest a⟩
  | other _ rest => exact ⟨_, le_rfl, rest a⟩

theorem within_step (hc : c.stage.Within n) (h : c.step config s k m = some (s', stage)) :
    ∃ rest, rest + 1 ≤ n ∧ stage.Within rest := by
  cases m with
  | perform now =>
      simp only [Call.step] at h
      split at h
      · rename_i next hstage
        rw [hstage] at hc
        obtain ⟨steps, hsteps, hwork⟩ := hc
        cases h
        cases hwork with
        | @commit rest _ hrest => exact ⟨rest + 3, by omega, rest, le_rfl, hrest _⟩
        | other hother => exact absurd rfl hother
      · rename_i request next hrequest hstage
        rw [hstage] at hc
        obtain ⟨steps, hsteps, hwork⟩ := hc
        obtain ⟨done, -, hdone⟩ := Option.map_eq_some_iff.mp h
        cases hdone
        obtain ⟨rest, hrest, hnext⟩ := within_answer hwork done.2
        exact ⟨rest + 2, by omega, rest, le_rfl, hnext⟩
      · cases h
  | fail e =>
      simp only [Call.step] at h
      split at h
      · rename_i request next hstage
        rw [hstage] at hc
        obtain ⟨steps, hsteps, hwork⟩ := hc
        cases h
        obtain ⟨rest, hrest, hnext⟩ := within_answer hwork (.error e)
        exact ⟨rest + 2, by omega, rest, le_rfl, hnext⟩
      · cases h
  | release =>
      simp only [Call.step] at h
      split at h
      · rename_i p hstage
        rw [hstage] at hc
        obtain ⟨steps, hsteps, hwork⟩ := hc
        cases h
        exact ⟨steps + 2, by omega, steps, le_rfl, hwork⟩
      · cases h
  | finish =>
      simp only [Call.step] at h
      split at h
      · rename_i reply hstage
        rw [hstage] at hc
        obtain ⟨steps, hsteps, -⟩ := hc
        split at h
        · cases h
          exact ⟨1, by omega, le_rfl⟩
        · cases h
          exact ⟨0, by omega, trivial⟩
      · rename_i e hstage
        rw [hstage] at hc
        obtain ⟨steps, hsteps, -⟩ := hc
        cases h
        exact ⟨0, by omega, trivial⟩
      · cases h
  | announce outcome =>
      simp only [Call.step] at h
      split at h
      · rename_i reply event hstage
        rw [hstage] at hc
        cases h
        exact ⟨0, hc, trivial⟩
      · rename_i reply event cause hstage
        rw [hstage] at hc
        cases h
        exact ⟨0, hc, trivial⟩
      · cases h
  | expire =>
      simp only [Call.step] at h
      split at h
      · rename_i request next limit hstage _
        rw [hstage] at hc
        obtain ⟨steps, hsteps, -⟩ := hc
        cases h
        exact ⟨0, by omega, trivial⟩
      · cases h
  | cancel =>
      simp only [Call.step] at h
      split at h
      · rename_i request next hstage
        rw [hstage] at hc
        obtain ⟨steps, hsteps, -⟩ := hc
        cases h
        exact ⟨0, by omega, trivial⟩
      · rename_i reply event hstage
        rw [hstage] at hc
        cases h
        exact ⟨0, hc, trivial⟩
      · cases h

theorem within_of_isOver (h : stage.isOver = true) (n : Nat) : stage.Within n := by
  cases stage with
  | returned | expired | dropped => trivial
  | _ => cases h

namespace World

open Finset

theorem length_le_of_run {left : CallId → Nat}
    (hleft : ∀ (k : CallId) c, w.calls[k]? = some c → c.stage.Within (left k))
    (hrun : w.run config actions = some w') :
    actions.length ≤
      ∑ k ∈ range w.calls.length, left k + 13 * actions.countP Action.isInvocation := by
  induction actions generalizing w left with
  | nil => exact Nat.zero_le _
  | cons a rest ih =>
      obtain ⟨w₁, hstep, hrest⟩ := run_cons hrun
      cases a with
      | invoke r =>
          cases hstep
          have hsum : ∑ k ∈ range (w.invoke config r).calls.length,
              Function.update left w.calls.length 12 k =
                ∑ k ∈ range w.calls.length, left k + 12 := by
            rw [invoke, List.length_append, List.length_singleton, sum_range_succ,
              Function.update_self]
            congr 1
            refine sum_congr rfl fun k hk => ?_
            exact Function.update_of_ne (mem_range.mp hk).ne _ _
          have hleft' : ∀ (k : CallId) c, (w.invoke config r).calls[k]? = some c →
              c.stage.Within (Function.update left w.calls.length 12 k) := by
            intro k c hk
            rcases calls_invoke hk with hold | ⟨rfl, rfl⟩
            · rw [Function.update_of_ne (List.getElem?_eq_some_iff.mp hold).1.ne]
              exact hleft k c hold
            · rw [Function.update_self]
              exact ⟨10, le_rfl, Work.within_program r config⟩
          have hle := ih hleft' hrest
          rw [hsum] at hle
          have hcount : (Action.invoke r :: rest).countP Action.isInvocation =
              rest.countP Action.isInvocation + 1 := List.countP_cons_of_pos rfl
          rw [List.length_cons, hcount]
          omega
      | move j m =>
          obtain ⟨c, store, stage, hcall, hmove, rfl⟩ := step_move hstep
          obtain ⟨hj, -⟩ := List.getElem?_eq_some_iff.mp hcall
          obtain ⟨fewer, hfewer, hstage⟩ := within_step (hleft j c hcall) hmove
          have hleft' : ∀ (k : CallId) c', (w.calls.set j { c with stage })[k]? = some c' →
              c'.stage.Within (Function.update left j fewer k) := by
            intro k c' hk
            rcases Decidable.em (j = k) with rfl | hjk
            · rw [List.getElem?_set_self hj] at hk
              cases hk
              rw [Function.update_self]
              exact hstage
            · rw [List.getElem?_set_ne hjk] at hk
              rw [Function.update_of_ne (Ne.symm hjk)]
              exact hleft k c' hk
          have hle := ih hleft' hrest
          have hless : ∑ k ∈ range w.calls.length, Function.update left j fewer k <
              ∑ k ∈ range w.calls.length, left k := by
            refine sum_lt_sum (fun k _ => ?_) ⟨j, mem_range.mpr hj, ?_⟩
            · rcases Decidable.em (k = j) with rfl | hkj
              · rw [Function.update_self]
                omega
              · rw [Function.update_of_ne hkj]
            · rw [Function.update_self]
              omega
          have hcount : (Action.move j m :: rest).countP Action.isInvocation =
              rest.countP Action.isInvocation :=
            List.countP_cons_of_neg (by simp [Action.isInvocation])
          rw [List.length_set] at hle
          rw [List.length_cons, hcount]
          omega

/-- When all calls are over, a run has at most thirteen steps for each call that is invoked in it,
the invocation included. -/
theorem length_le_of_isOver (hover : ∀ c ∈ w.calls, c.stage.isOver = true)
    (hrun : w.run config actions = some w') :
    actions.length ≤ 13 * actions.countP Action.isInvocation := by
  have hleft : ∀ (k : CallId) c, w.calls[k]? = some c → c.stage.Within ((fun _ => 0) k) :=
    fun k c hcall => within_of_isOver (hover c (List.mem_of_getElem? hcall)) 0
  have hle := length_le_of_run hleft hrun
  rw [sum_const_zero, Nat.zero_add] at hle
  exact hle

end World

end Ledger.Concurrent
