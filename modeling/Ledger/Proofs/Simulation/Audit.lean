import Ledger.Proofs.Decimal.Sums
import Ledger.Simulation.Run

/-!
What the audit of a simulation finds. Its verdict on the balances is right as long as neither their
sum nor the product that this should be is rounded.
-/

namespace Ledger

variable {accounts : List Account} {initial total expected : Decimal}

theorem countOf_spec (h : accounts.length < 2 ^ 96) :
    (countOf accounts).scale = 0 ∧ (countOf accounts).value = accounts.length := by
  have hdigits : Decimal.ofDigits? false accounts.length 0 =
      some ⟨false, accounts.length, 0, h, by omega⟩ :=
    dif_pos ⟨h, by omega⟩
  have hcount : countOf accounts = ⟨false, accounts.length, 0, h, by omega⟩ := by
    rw [countOf, hdigits, Option.getD_some]
  rw [hcount]
  refine ⟨rfl, ?_⟩
  rw [Decimal.value_of_scale rfl, pow_zero, div_one]
  rfl

/-- What the balances are worth together. -/
def worthOf (accounts : List Account) : ℚ :=
  (accounts.map (·.balance.value)).sum

theorem filter_negative_eq_nil_iff :
    accounts.filter (·.balance < 0) = [] ↔ ∀ row ∈ accounts, 0 ≤ row.balance.value := by
  rw [List.filter_eq_nil_iff]
  refine forall₂_congr fun row _ => ?_
  rw [decide_eq_true_iff, Decimal.lt_iff_value, Decimal.zero_value, not_lt]

theorem audit_of_negative (initial : Decimal) (h : ¬∀ row ∈ accounts, 0 ≤ row.balance.value) :
    ∃ debtors, audit initial accounts = .error (.negativeBalances debtors) := by
  rw [← filter_negative_eq_nil_iff] at h
  obtain ⟨first, rest, hdebtors⟩ := List.exists_cons_of_ne_nil h
  exact ⟨(first :: rest).map (·.id), by rw [audit, hdebtors]⟩

theorem audit_of_nonneg (h : ∀ row ∈ accounts, 0 ≤ row.balance.value)
    (hsum : Decimal.sum? (accounts.map (·.balance)) = some total)
    (hproduct : initial.mul? (countOf accounts) = some expected) :
    audit initial accounts =
      if total.value = expected.value then .ok total
      else .error (.notConserved expected total) := by
  rw [audit, filter_negative_eq_nil_iff.mpr h, hsum, hproduct]
  exact if_congr Decimal.sameValue_iff_value rfl rfl

/-- Where nothing is rounded, the audit compares what the balances are worth with what was paid
in. -/
theorem exists_audit_eq (hcount : accounts.length < 2 ^ 96)
    (hsums : Decimal.AddsUp (accounts.map (·.balance)))
    (hproduct : Decimal.Representable (initial.value * accounts.length))
    (h : ∀ row ∈ accounts, 0 ≤ row.balance.value) :
    ∃ total expected : Decimal, total.value = worthOf accounts ∧
      audit initial accounts =
        if worthOf accounts = initial.value * accounts.length then .ok total
        else .error (.notConserved expected total) := by
  obtain ⟨total, hsum, htotal⟩ := hsums.exists_sum?
  rw [List.map_map] at htotal
  obtain ⟨-, hlength⟩ := countOf_spec hcount
  rw [← hlength] at hproduct
  obtain ⟨expected, hmul, hexpected⟩ := Decimal.exists_mul?_of_representable hproduct
  rw [hlength] at hexpected
  refine ⟨total, expected, htotal, ?_⟩
  rw [audit_of_nonneg h hsum hmul, htotal, hexpected]
  rfl

/-- The audit is passed exactly by balances of which none is negative and that are worth the initial
balance times the number of accounts, and returns what they are worth; and it misses funds exactly
where they are worth something else. This holds if all sums of balances, from the first one on, can
be held, and the product too. -/
theorem audit_exact (hcount : accounts.length < 2 ^ 96)
    (hsums : Decimal.AddsUp (accounts.map (·.balance)))
    (hproduct : Decimal.Representable (initial.value * accounts.length)) :
    ((∃ total, audit initial accounts = .ok total) ↔
      (∀ row ∈ accounts, 0 ≤ row.balance.value) ∧
        worthOf accounts = initial.value * accounts.length) ∧
    (∀ total, audit initial accounts = .ok total → total.value = worthOf accounts) ∧
    ((∃ expected found, audit initial accounts = .error (.notConserved expected found)) ↔
      (∀ row ∈ accounts, 0 ≤ row.balance.value) ∧
        worthOf accounts ≠ initial.value * accounts.length) := by
  by_cases h : ∀ row ∈ accounts, 0 ≤ row.balance.value
  · obtain ⟨total, expected, htotal, haudit⟩ := exists_audit_eq hcount hsums hproduct h
    rw [haudit]
    split
    · rename_i hsame
      refine ⟨iff_of_true ⟨total, rfl⟩ ⟨h, hsame⟩, ?_, iff_of_false ?_ fun hother => hother.2 hsame⟩
      · rintro found ⟨⟩
        exact htotal
      · rintro ⟨_, _, ⟨⟩⟩
    · rename_i hother
      refine ⟨iff_of_false ?_ fun hsame => hother hsame.2, ?_,
        iff_of_true ⟨expected, total, rfl⟩ ⟨h, hother⟩⟩
      · rintro ⟨_, ⟨⟩⟩
      · rintro found ⟨⟩
  · obtain ⟨debtors, haudit⟩ := audit_of_negative initial h
    rw [haudit]
    refine ⟨iff_of_false ?_ fun hall => h hall.1, ?_, iff_of_false ?_ fun hall => h hall.1⟩
    · rintro ⟨_, ⟨⟩⟩
    · rintro found ⟨⟩
    · rintro ⟨_, _, ⟨⟩⟩

namespace Simulation

/-- An account of a simulation after its initial balance has been paid in. -/
def rowHolding (index : ℕ) (balance : Decimal) : Account :=
  ⟨index + 1, ownerOf index, "checking", currency, balance, .active, 1, .epoch, .epoch⟩

/-- Two accounts that started with fifty dollars each. -/
theorem audit_exact_pair :
    let pair := [rowHolding 0 (.cents 2999), rowHolding 1 (.cents 7001)]
    pair.length < 2 ^ 96 ∧ Decimal.AddsUp (pair.map (·.balance)) ∧
      Decimal.Representable ((Decimal.cents 5000).value * pair.length) ∧
      ∃ total, audit (.cents 5000) pair = .ok total ∧ total.value = 100 := by
  intro pair
  have hcount : pair.length < 2 ^ 96 := by decide
  have hbalances : pair.map (·.balance) = [.cents 2999, .cents 7001] := rfl
  have hsum : ((pair.map (·.balance)).map Decimal.value).sum = 100 := by
    rw [hbalances]
    norm_num [Decimal.value_cents]
  have hnonneg : ∀ row ∈ pair, 0 ≤ row.balance.value := by
    simp only [pair, List.forall_mem_cons, rowHolding, Decimal.value_cents]
    norm_num
  have hsums : Decimal.AddsUp (pair.map (·.balance)) := by
    apply Decimal.addsUp_of_sum_lt (s := 2)
    · intro balance hbalance
      obtain ⟨row, hrow, rfl⟩ := List.mem_map.mp hbalance
      refine ⟨?_, hnonneg row hrow⟩
      revert row
      decide
    · norm_num
    · rw [hsum]
      norm_num
  have hexpected : (Decimal.cents 5000).value * pair.length = 100 := by
    rw [Decimal.value_cents, show pair.length = 2 from rfl]
    norm_num
  have hproduct : Decimal.Representable ((Decimal.cents 5000).value * pair.length) := by
    rw [hexpected]
    exact ⟨⟨false, 100, 0, by decide, by decide⟩, by norm_num [Decimal.value, Decimal.signed]⟩
  obtain ⟨hpassed, htotal, -⟩ := audit_exact hcount hsums hproduct
  have hworth : worthOf pair = 100 := by
    rw [← hsum, List.map_map]
    rfl
  obtain ⟨total, haudit⟩ := hpassed.mpr ⟨hnonneg, hworth.trans hexpected.symm⟩
  exact ⟨hcount, hsums, hproduct, total, haudit, (htotal total haudit).trans hworth⟩

/-- Five accounts with almost as many cents as there can be, and no transfers. -/
def full : Simulation :=
  ⟨5, 0, some 1, 1, .cents (2 ^ 96 - 2)⟩

/-- A sum that is rounded at each step is not the product that is rounded once: the audit misses
funds where there is all that was paid in, and overlooks that a cent is gone. -/
theorem audit_misled :
    (let rows := (List.range 5).map (rowHolding · full.initialBalance)
     let verdict : AuditError := .notConserved
      ⟨false, 39614081257132168796771975167, 1, by decide, by decide⟩
      ⟨false, 39614081257132168796771975166, 1, by decide, by decide⟩
     (full.openAccounts .standard fun _ => .epoch).map (·.service.store.tables.accounts) =
        .ok rows ∧
      (∀ row ∈ rows, 0 ≤ row.balance.value) ∧
      worthOf rows = full.initialBalance.value * rows.length ∧
      audit full.initialBalance rows = .error verdict ∧
      full.run .standard (fun _ => .epoch) (.ofSeed 1) = .error (.audit verdict)) ∧
    (let rows := [rowHolding 0 full.initialBalance, rowHolding 1 (.cents (2 ^ 96 - 3))]
     worthOf rows < full.initialBalance.value * rows.length ∧
      ∃ total, audit full.initialBalance rows = .ok total) := by
  have hfull : full.initialBalance.value = (2 ^ 96 - 2) / 100 := by
    rw [show full.initialBalance = .cents (2 ^ 96 - 2) from rfl, Decimal.value_cents]
    norm_num
  refine ⟨⟨by decide +kernel, ?_, ?_, by decide +kernel, by decide +kernel⟩, ?_,
    ⟨false, 15845632502852867518708790067, 1, by decide, by decide⟩, by decide +kernel⟩
  · intro row hrow
    obtain ⟨index, -, rfl⟩ := List.mem_map.mp hrow
    rw [rowHolding, hfull]
    norm_num
  · norm_num [worthOf, List.range_succ, rowHolding, hfull]
  · norm_num [worthOf, rowHolding, hfull, Decimal.value_cents]

end Simulation

end Ledger
