import Ledger.Proofs.Simulation.Accounts
import Ledger.Proofs.Tables.Payments

/-!
The transfers of a simulation. Whatever is drawn, there is nothing wrong with them, except that the
balance of the source may be too small when its turn comes.
-/

namespace Ledger.Simulation

/-- A transfer of a positive number of cents between two accounts of a simulation, asked for by the
owner of the first. -/
structure Planned (sim : Simulation) (q : TransferRequest) : Prop where
  between : ∃ i j, i < sim.accounts ∧ j < sim.accounts ∧ i ≠ j ∧ q.source = i + 1 ∧
    q.destination = j + 1 ∧ q.user = ownerOf i ∧ (q.kind = .internal → ownerOf j = q.user)
  cents : ∃ cents : ℕ, 0 < cents ∧ cents < 2 ^ 96 ∧ q.amount.value = cents / 100

variable {sim : Simulation} {config : Config} {now : Timestamp} {t t' : Tables} {draws : Draws}
  {index : ℕ} {q : TransferRequest}

namespace Planned

variable (h : sim.Planned q)

include h

theorem positive : ¬q.amount ≤ 0 := by
  obtain ⟨cents, hpos, -, hvalue⟩ := h.cents
  apply Decimal.not_le_zero_of_pos
  rw [hvalue]
  positivity

theorem distinct : q.source ≠ q.destination := by
  obtain ⟨i, j, -, -, hne, hsource, hdestination, -⟩ := h.between
  rw [hsource, hdestination]
  exact fun heq => hne (Nat.succ.inj heq)

end Planned

section Draw

variable {accounts : List Account} (htwo : 2 ≤ accounts.length)

include htwo

theorem plannedTransfer_eq (sim : Simulation) (draws : Draws) (index : ℕ) :
    ∃ (i j : ℕ) (source destination : Account), i ≠ j ∧ accounts[i]? = some source ∧
      accounts[j]? = some destination ∧
      sim.plannedTransfer accounts draws index = some (transferBetween source destination
        (drawnAmount sim.initialBalance draws (3 * index + 2))) := by
  have hsource : draws.below (3 * index) accounts.length < accounts.length :=
    Nat.mod_lt _ (by omega)
  have hother : draws.below (3 * index + 1) (accounts.length - 1) < accounts.length - 1 :=
    Nat.mod_lt _ (by omega)
  unfold plannedTransfer
  generalize draws.below (3 * index) accounts.length = i at *
  generalize draws.below (3 * index + 1) (accounts.length - 1) = other at *
  have hdestination : (if i ≤ other then other + 1 else other) < accounts.length := by
    split <;> omega
  refine ⟨i, if i ≤ other then other + 1 else other, accounts[i],
    accounts[if i ≤ other then other + 1 else other], ?_, List.getElem?_eq_getElem hsource,
    List.getElem?_eq_getElem hdestination, ?_⟩
  · split <;> omega
  · simp only [List.getElem?_eq_getElem hsource, List.getElem?_eq_getElem hdestination]
    rfl

theorem length_plan (sim : Simulation) (draws : Draws) :
    (sim.plan accounts draws).length = sim.transfers := by
  rw [plan, if_neg (Nat.not_lt.mpr htwo), List.length_filterMap_eq_countP,
    List.countP_eq_length.mpr, List.length_range]
  intro index _
  obtain ⟨i, j, source, destination, -, -, -, hplanned⟩ :=
    plannedTransfer_eq htwo sim draws index
  rw [hplanned]
  rfl

end Draw

theorem drawnAmount_value (initial : Decimal) (draws : Draws) (index : ℕ) :
    ∃ cents : ℕ, 0 < cents ∧ cents < 2 ^ 96 ∧
      (drawnAmount initial draws index).value = cents / 100 := by
  refine ⟨draws.below index (maxCents initial) + 1, Nat.succ_pos _, ?_,
    Decimal.value_cents _ _⟩
  exact (drawnAmount initial draws index).mantissa_lt

theorem Opened.planned (h : Opened sim.accounts t) (draws : Draws) :
    ∀ q ∈ sim.plan t.accounts draws, sim.Planned q := by
  intro q hq
  rw [plan] at hq
  split at hq
  · cases hq
  · rename_i htwo
    obtain ⟨index, -, hplanned⟩ := List.mem_filterMap.mp hq
    obtain ⟨i, j, source, destination, hne, hsource, hdestination, heq⟩ :=
      plannedTransfer_eq (Nat.not_lt.mp htwo) sim draws index
    rw [heq, Option.some.injEq] at hplanned
    subst hplanned
    obtain ⟨hfrom, howner, -, -⟩ := h.rows i source hsource
    obtain ⟨hto, howner', -, -⟩ := h.rows j destination hdestination
    refine ⟨⟨i, j, ?_, ?_, hne, hfrom, hto, howner, ?_⟩, drawnAmount_value _ _ _⟩
    · exact h.length ▸ (List.getElem?_eq_some_iff.mp hsource).1
    · exact h.length ▸ (List.getElem?_eq_some_iff.mp hdestination).1
    · intro hkind
      rw [← howner']
      unfold transferBetween at hkind
      split at hkind
      · rename_i hsame
        exact hsame.symm
      · cases hkind

theorem length_plan_eq (h : Opened sim.accounts t) (draws : Draws) :
    (sim.plan t.accounts draws).length = if 2 ≤ sim.accounts then sim.transfers else 0 := by
  split
  · rename_i htwo
    exact length_plan (h.length ▸ htwo) sim draws
  · rename_i hfew
    rw [plan, if_pos (by rw [h.length]; omega)]
    rfl

theorem Payable.mul?_isSome (h : sim.Payable) (htwo : 2 ≤ sim.accounts) :
    (sim.initialBalance.mul? ⟨false, 25, 0, by decide, by decide⟩).isSome = true := by
  rw [Decimal.mul?]
  split
  · rfl
  · apply Decimal.fit?_isSome
    obtain ⟨cents, hpos, hvalue, hlt⟩ := h.exists_cents
    have hcents : cents * 2 < 2 ^ 96 := lt_of_le_of_lt (Nat.mul_le_mul_left cents htwo) hlt
    have hunits : sim.initialBalance.mantissa * 100 = cents * 10 ^ sim.initialBalance.scale := by
      rw [Decimal.value_of_nonneg h.positive.le,
        div_eq_div_iff (Decimal.pow_ten_pos _).ne' (by norm_num)] at hvalue
      exact_mod_cast hvalue
    show sim.initialBalance.mantissa * 25 / 10 ^ sim.initialBalance.scale + 1 < 2 ^ 96
    have hquarter : sim.initialBalance.mantissa * 25 / 10 ^ sim.initialBalance.scale ≤ cents := by
      apply Nat.div_le_of_le_mul
      rw [Nat.mul_comm _ cents, ← hunits]
      omega
    omega

end Ledger.Simulation
