import Ledger.Decimal.Basic
import Mathlib.Algebra.Order.Field.Rat
import Mathlib.Tactic.FieldSimp
import Mathlib.Tactic.Linarith

namespace Ledger.Decimal

variable {a b c : Decimal} {s : Nat}

/-- What a decimal number is worth. -/
def value (d : Decimal) : ℚ :=
  d.signed / 10 ^ d.scale

theorem pow_ten_pos (n : Nat) : (0 : ℚ) < 10 ^ n :=
  pow_pos (by norm_num) n

theorem value_of_scale (h : a.scale = s) : a.value = a.signed / 10 ^ s := by
  rw [value, h]

theorem le_iff_value : a ≤ b ↔ a.value ≤ b.value := by
  rw [value, value, div_le_div_iff₀ (pow_ten_pos _) (pow_ten_pos _)]
  exact_mod_cast Iff.rfl

theorem lt_iff_value : a < b ↔ a.value < b.value := by
  rw [value, value, div_lt_div_iff₀ (pow_ten_pos _) (pow_ten_pos _)]
  exact_mod_cast Iff.rfl

theorem value_zero (s : Nat) (h : s ≤ 28) : (zero s h).value = 0 := by
  simp [value, signed, zero]

@[simp] theorem zero_value : (0 : Decimal).value = 0 :=
  value_zero 0 (by decide)

theorem natAbs_signed (d : Decimal) : d.signed.natAbs = d.mantissa := by
  unfold signed
  split <;> simp

theorem signed_eq_zero : a.signed = 0 ↔ a.mantissa = 0 := by
  rw [← Int.natAbs_eq_zero, natAbs_signed]

theorem value_eq_zero : a.value = 0 ↔ a.mantissa = 0 := by
  rw [value, div_eq_zero_iff, ← signed_eq_zero, Int.cast_eq_zero]
  exact or_iff_left (pow_ten_pos _).ne'

theorem signed_neg (d : Decimal) : d.neg.signed = -d.signed := by
  unfold signed neg
  cases d.negative
  · rcases Nat.eq_zero_or_pos d.mantissa with hzero | hpos
    · simp [hzero]
    · simp [hpos.ne']
  · simp

theorem signed_pos_iff : 0 < a.signed ↔ 0 < a.value := by
  rw [value, lt_div_iff₀ (pow_ten_pos _), zero_mul]
  exact_mod_cast Iff.rfl

theorem value_of_nonneg (h : 0 ≤ a.value) : a.value = a.mantissa / 10 ^ a.scale := by
  have hsigned : 0 ≤ a.signed := by
    rw [value, le_div_iff₀ (pow_ten_pos _), zero_mul] at h
    exact_mod_cast h
  have hmantissa : a.signed = a.mantissa := by
    rw [← natAbs_signed, Int.natAbs_of_nonneg hsigned]
  rw [value, hmantissa, Int.cast_natCast]

theorem pos_of_not_le_zero (h : ¬a ≤ 0) : 0 < a.value := by
  rw [le_iff_value, zero_value] at h
  exact not_le.mp h

theorem not_le_zero_of_pos (h : 0 < a.value) : ¬a ≤ 0 := by
  rw [le_iff_value, zero_value]
  exact not_le.mpr h

theorem signed_of_ofDigits? {negative : Bool} {mantissa : Nat}
    (h : ofDigits? negative mantissa s = some c) :
    c.scale = s ∧ c.signed = if negative then -(mantissa : Int) else mantissa := by
  unfold ofDigits? at h
  split at h
  · cases h
    refine ⟨rfl, ?_⟩
    unfold signed
    cases negative
    · simp
    · rcases Nat.eq_zero_or_pos mantissa with rfl | hpos
      · simp
      · simp [hpos.ne']
  · cases h

theorem value_of_ofDigits? {negative : Bool} {mantissa : Nat}
    (h : ofDigits? negative mantissa s = some c) :
    c.value = (if negative then -1 else 1) * (mantissa / 10 ^ s) := by
  obtain ⟨hscale, hsigned⟩ := signed_of_ofDigits? h
  rw [value_of_scale hscale, hsigned]
  cases negative <;> simp [neg_div]

theorem signed_of_fit? {sum : Int} (h : fit? (sum < 0) sum.natAbs s = some c)
    (hscale : c.scale = s) : c.signed = sum := by
  obtain ⟨dropped, hmem, hdigits⟩ := List.exists_of_findSome?_eq_some h
  obtain ⟨hplaces, hsigned⟩ := signed_of_ofDigits? hdigits
  have hdropped : dropped = 0 := by
    have hlt := List.mem_range.mp hmem
    omega
  subst hdropped
  rw [hsigned, Nat.pow_eq, pow_zero, roundDiv_one]
  rcases lt_or_ge sum 0 with hneg | hnonneg
  · simp only [hneg, decide_true, if_true]
    omega
  · simp only [not_lt.mpr hnonneg, decide_false, Bool.false_eq_true, if_false]
    omega

theorem fit?_of_lt {negative : Bool} {mantissa : Nat} (hlt : mantissa < 2 ^ 96) (hs : s ≤ 28) :
    fit? negative mantissa s = some ⟨negative && mantissa != 0, mantissa, s, hlt, hs⟩ := by
  have hdigits : ofDigits? negative mantissa s =
      some ⟨negative && mantissa != 0, mantissa, s, hlt, hs⟩ :=
    dif_pos ⟨hlt, hs⟩
  unfold fit?
  rw [List.range_succ_eq_map, List.findSome?_cons, Nat.pow_eq, pow_zero, roundDiv_one, Nat.sub_zero,
    hdigits]

section SameScale

variable (ha : a.scale = s) (hb : b.scale = s)

include ha hb

theorem add?_of_scale (hza : a.mantissa ≠ 0) (hzb : b.mantissa ≠ 0) :
    a.add? b = fit? (a.signed + b.signed < 0) (a.signed + b.signed).natAbs s := by
  have hone : Int.pow 10 0 = 1 := rfl
  unfold add?
  rw [if_neg hza, if_neg hzb]
  simp only [ha, hb, max_self, Nat.sub_self, hone, mul_one]

theorem signed_of_add? (h : a.add? b = some c) (hc : c.scale = s) :
    c.signed = a.signed + b.signed := by
  rcases eq_or_ne a.mantissa 0 with hza | hza
  · rw [add?, if_pos hza] at h
    cases h
    rw [signed_eq_zero.mpr hza, zero_add]
  · rcases eq_or_ne b.mantissa 0 with hzb | hzb
    · rw [add?, if_neg hza, if_pos hzb] at h
      cases h
      rw [signed_eq_zero.mpr hzb, add_zero]
    · rw [add?_of_scale ha hb hza hzb] at h
      exact signed_of_fit? h hc

theorem exists_sub? (hpos : 0 < b.signed) (hle : b.signed ≤ a.signed) :
    ∃ c, a.sub? b = some c ∧ c.scale = s ∧ c.signed = a.signed - b.signed := by
  have hmantissa := natAbs_signed a
  have hmantissa' := natAbs_signed b
  have hlt : (a.signed + b.neg.signed).natAbs < 2 ^ 96 := by
    refine lt_of_le_of_lt ?_ a.mantissa_lt
    rw [← hmantissa, signed_neg]
    omega
  have hza : a.mantissa ≠ 0 := by omega
  have hzb : b.neg.mantissa ≠ 0 := by
    show b.mantissa ≠ 0
    omega
  obtain ⟨c, hfit, hplaces⟩ : ∃ c, fit? (a.signed + b.neg.signed < 0)
      (a.signed + b.neg.signed).natAbs s = some c ∧ c.scale = s :=
    ⟨_, fit?_of_lt hlt (ha ▸ a.scale_le), rfl⟩
  refine ⟨c, ?_, hplaces, ?_⟩
  · rw [sub?, add?_of_scale ha (show b.neg.scale = s from hb) hza hzb, hfit]
  · rw [signed_of_fit? hfit hplaces, signed_neg, Int.sub_eq_add_neg]

theorem sub?_of_le (hpos : 0 < b.signed) (hle : b.signed ≤ a.signed) (h : a.sub? b = some c) :
    c.scale = s ∧ c.signed = a.signed - b.signed := by
  obtain ⟨c', hsub, hleft⟩ := exists_sub? ha hb hpos hle
  rw [hsub] at h
  cases h
  exact hleft

theorem signed_le_iff : a.signed ≤ b.signed ↔ a.value ≤ b.value := by
  rw [value_of_scale ha, value_of_scale hb, div_le_div_iff_of_pos_right (pow_ten_pos s)]
  exact_mod_cast Iff.rfl

theorem value_of_signed_add (hc : c.scale = s) (h : c.signed = a.signed + b.signed) :
    c.value = a.value + b.value := by
  rw [value_of_scale ha, value_of_scale hb, value_of_scale hc, h, Int.cast_add, add_div]

theorem value_of_signed_sub (hc : c.scale = s) (h : c.signed = a.signed - b.signed) :
    c.value = a.value - b.value := by
  rw [value_of_scale ha, value_of_scale hb, value_of_scale hc, h, Int.cast_sub, sub_div]

end SameScale

end Ledger.Decimal
