import Ledger.Proofs.Decimal.Reading
import Mathlib.Algebra.BigOperators.Group.List.Basic
import Mathlib.Algebra.Order.BigOperators.Group.List

/-!
Sums and products lose nothing where the result can be held. So a sum of many numbers is exact if
all the sums on the way to it can be held.
-/

namespace Ledger.Decimal

variable {a b c d : Decimal} {s k j mantissa scale : ℕ} {negative : Bool} {q : ℚ}
  {ds : List Decimal}

theorem sameValue_iff_value : SameValue a b ↔ a.value = b.value := by
  rw [value, value, div_eq_div_iff (pow_ten_pos _).ne' (pow_ten_pos _).ne']
  exact_mod_cast Iff.rfl

theorem representable_div (hk : k < 2 ^ 96) (hs : s ≤ 28) : Representable (k / 10 ^ s) :=
  ⟨⟨false, k, s, hk, hs⟩, by simp [value, signed]⟩

section Fit

/-- The digits that are kept are the first ones that fit. -/
theorem fit?_spec (h : fit? negative mantissa scale = some c) :
    ∃ dropped, ofDigits? negative (roundDiv .even mantissa (10 ^ dropped)) (scale - dropped) =
        some c ∧
      ∀ fewer < dropped,
        ofDigits? negative (roundDiv .even mantissa (10 ^ fewer)) (scale - fewer) = none := by
  obtain ⟨before, dropped, rest, hrange, hdigits, hnone⟩ := List.findSome?_eq_some_iff.mp h
  refine ⟨dropped, hdigits, ?_⟩
  intro fewer hlt
  apply hnone
  have hlt' : fewer < scale + 1 := by
    have hmem : dropped ∈ List.range (scale + 1) := by simp [hrange]
    exact hlt.trans (List.mem_range.mp hmem)
  have hmem := List.mem_range.mpr hlt'
  rw [hrange] at hmem
  rcases List.mem_append.mp hmem with hbefore | hrest
  · exact hbefore
  · have hsorted : (before ++ dropped :: rest).Pairwise (· < ·) := hrange ▸ List.pairwise_lt_range
    have hle : ∀ later ∈ rest, dropped < later :=
      (List.pairwise_cons.mp (List.pairwise_append.mp hsorted).2.1).1
    rcases List.mem_cons.mp hrest with rfl | hlater
    · exact absurd hlt (Nat.lt_irrefl _)
    · exact absurd (hle fewer hlater) (Nat.lt_asymm hlt)

theorem fit?_isSome (hlt : mantissa / 10 ^ scale + 1 < 2 ^ 96) :
    (fit? negative mantissa scale).isSome = true := by
  apply List.findSome?_isSome_iff.mpr
  refine ⟨scale, List.mem_range.mpr (Nat.lt_succ_self _), ?_⟩
  have hfits := lt_of_le_of_lt (roundDiv_le_succ .even mantissa (10 ^ scale)) hlt
  rw [ofDigits?, dif_pos ⟨hfits, by omega⟩]
  rfl

theorem exists_fit? (hmantissa : mantissa = k * 10 ^ j) (hk : k < 2 ^ 96) (hj : j ≤ scale)
    (hplaces : scale ≤ j + 28) :
    ∃ c, fit? false mantissa scale = some c ∧ c.value = mantissa / 10 ^ scale := by
  have hround : ∀ dropped ≤ j, roundDiv .even mantissa (10 ^ dropped) = k * 10 ^ (j - dropped) := by
    intro dropped hle
    have hsplit : mantissa = 10 ^ dropped * (k * 10 ^ (j - dropped)) := by
      rw [hmantissa, mul_left_comm, ← pow_add, Nat.add_sub_cancel' hle]
    rw [roundDiv_of_dvd .even (by positivity) ⟨_, hsplit⟩, hsplit,
      Nat.mul_div_cancel_left _ (by positivity)]
  have hlast : (ofDigits? false (roundDiv .even mantissa (10 ^ j)) (scale - j)).isSome = true := by
    rw [hround j le_rfl, Nat.sub_self, pow_zero, mul_one, ofDigits?, dif_pos ⟨hk, by omega⟩]
    rfl
  obtain ⟨c, hc⟩ : ∃ c, fit? false mantissa scale = some c := by
    apply Option.isSome_iff_exists.mp
    exact List.findSome?_isSome_iff.mpr ⟨j, List.mem_range.mpr (by omega), hlast⟩
  refine ⟨c, hc, ?_⟩
  obtain ⟨dropped, hdigits, hnone⟩ := fit?_spec hc
  have hle : dropped ≤ j := by
    by_contra hgt
    rw [hnone j (Nat.lt_of_not_le hgt)] at hlast
    cases hlast
  have hpower : (10 : ℚ) ^ scale = 10 ^ (scale - dropped) * 10 ^ dropped := by
    rw [← pow_add, Nat.sub_add_cancel (hle.trans hj)]
  have hmantissa : (mantissa : ℚ) = (k * 10 ^ (j - dropped) : ℕ) * 10 ^ dropped := by
    rw [hmantissa, ← Nat.sub_add_cancel hle, pow_add]
    push_cast
    rw [Nat.add_sub_cancel, mul_assoc]
  rw [value_of_ofDigits? hdigits, hround dropped hle, if_neg Bool.false_ne_true, one_mul, hpower,
    hmantissa, mul_div_mul_right _ _ (pow_ten_pos dropped).ne']

theorem fit?_true (mantissa scale : ℕ) :
    fit? true mantissa scale = (fit? false mantissa scale).map neg := by
  have hdigits : ∀ m s, ofDigits? true m s = (ofDigits? false m s).map neg := by
    intro m s
    unfold ofDigits?
    split <;> rfl
  simp only [fit?, hdigits, List.map_findSome?]
  rfl

theorem exists_fit?_of_representable (h : Representable (mantissa / 10 ^ scale)) :
    ∃ c, fit? negative mantissa scale = some c ∧
      c.value = (if negative then -1 else 1) * (mantissa / 10 ^ scale) := by
  obtain ⟨m, s, hm, hs, hvalue⟩ :=
    h.exists_mantissa (div_nonneg (Nat.cast_nonneg _) (pow_ten_pos _).le)
  rw [div_eq_div_iff (pow_ten_pos _).ne' (pow_ten_pos _).ne'] at hvalue
  have hunits : mantissa * 10 ^ s = m * 10 ^ scale := by exact_mod_cast hvalue
  obtain ⟨c, hc, hworth⟩ : ∃ c, fit? false mantissa scale = some c ∧
      c.value = mantissa / 10 ^ scale := by
    rcases Nat.le_total s scale with hle | hge
    · have hmantissa : mantissa = m * 10 ^ (scale - s) := by
        apply Nat.eq_of_mul_eq_mul_right (show 0 < 10 ^ s by positivity)
        rw [hunits, mul_assoc, ← pow_add, Nat.sub_add_cancel hle]
      exact exists_fit? hmantissa hm (Nat.sub_le _ _) (by omega)
    · have hmantissa : mantissa * 10 ^ (s - scale) = m := by
        apply Nat.eq_of_mul_eq_mul_right (show 0 < 10 ^ scale by positivity)
        rw [mul_assoc, ← pow_add, Nat.sub_add_cancel hge, hunits]
      have hlt : mantissa < 2 ^ 96 :=
        lt_of_le_of_lt (Nat.le_mul_of_pos_right _ (by positivity)) (hmantissa.trans_lt hm)
      exact exists_fit? (j := 0) (by rw [pow_zero, mul_one]) hlt (Nat.zero_le _) (by omega)
  cases negative with
  | false => exact ⟨c, hc, by rw [hworth, if_neg Bool.false_ne_true, one_mul]⟩
  | true =>
      refine ⟨c.neg, by rw [fit?_true, hc, Option.map_some], ?_⟩
      rw [value_neg, hworth, if_pos rfl, neg_one_mul]

theorem exists_fit?_of_value (hq : q = (if negative then -1 else 1) * (mantissa / 10 ^ scale))
    (h : Representable q) : ∃ c, fit? negative mantissa scale = some c ∧ c.value = q := by
  rw [hq] at h ⊢
  refine exists_fit?_of_representable ?_
  cases negative with
  | false => simpa using h
  | true => simpa using h.neg

end Fit

theorem value_at_scale (h : d.scale ≤ s) :
    d.value = (d.signed * 10 ^ (s - d.scale) : ℤ) / 10 ^ s := by
  have hpower : (10 : ℚ) ^ s = 10 ^ d.scale * 10 ^ (s - d.scale) := by
    rw [← pow_add, Nat.add_sub_cancel' h]
  rw [value, hpower]
  push_cast
  rw [mul_div_mul_right _ _ (pow_ten_pos _).ne']

theorem exists_add?_of_representable (h : Representable (a.value + b.value)) :
    ∃ c, a.add? b = some c ∧ c.value = a.value + b.value := by
  unfold add?
  split
  · rename_i hzero
    exact ⟨b, rfl, by rw [value_eq_zero.mpr hzero, zero_add]⟩
  split
  · rename_i hzero
    exact ⟨a, rfl, by rw [value_eq_zero.mpr hzero, add_zero]⟩
  rw [value_at_scale (le_max_left a.scale b.scale), value_at_scale (le_max_right a.scale b.scale),
    ← add_div, ← Int.cast_add] at h ⊢
  simp only [Int.pow_eq]
  generalize a.signed * 10 ^ (max a.scale b.scale - a.scale) +
    b.signed * 10 ^ (max a.scale b.scale - b.scale) = sum at h ⊢
  refine exists_fit?_of_value ?_ h
  rcases lt_or_ge sum 0 with hneg | hnonneg
  · have habs : (sum : ℚ) = -(sum.natAbs : ℚ) := by
      rw [Nat.cast_natAbs, abs_of_neg hneg, Int.cast_neg, neg_neg]
    rw [if_pos (decide_eq_true hneg), neg_one_mul, habs, neg_div]
  · have habs : (sum : ℚ) = (sum.natAbs : ℚ) := by
      rw [Nat.cast_natAbs, abs_of_nonneg hnonneg]
    rw [if_neg (by simpa using hnonneg), one_mul, habs]

theorem exists_mul?_of_representable (h : Representable (a.value * b.value)) :
    ∃ c, a.mul? b = some c ∧ c.value = a.value * b.value := by
  unfold mul?
  split
  · rename_i hzero
    refine ⟨0, rfl, ?_⟩
    rw [zero_value, eq_comm, mul_eq_zero, value_eq_zero, value_eq_zero]
    exact hzero
  refine exists_fit?_of_value ?_ h
  rw [value_eq, value_eq, pow_add]
  cases a.negative <;> cases b.negative <;> simp <;> ring

/-- All the sums on the way, from left to right, can be held. -/
def AddsUp (ds : List Decimal) : Prop :=
  ∀ k, Representable ((ds.take k).map value).sum

theorem exists_foldlM_add? (h : ∀ k, Representable (a.value + ((ds.take k).map value).sum)) :
    ∃ c, ds.foldlM add? a = some c ∧ c.value = a.value + (ds.map value).sum := by
  induction ds generalizing a with
  | nil => exact ⟨a, rfl, by simp⟩
  | cons d rest ih =>
      have hone := h 1
      rw [List.take_succ_cons, List.take_zero, List.map_singleton, List.sum_singleton] at hone
      obtain ⟨sum, hadd, hsum⟩ := exists_add?_of_representable hone
      have hrest : ∀ k, Representable (sum.value + ((rest.take k).map value).sum) := by
        intro k
        have hnext := h (k + 1)
        rwa [List.take_succ_cons, List.map_cons, List.sum_cons, ← add_assoc, ← hsum] at hnext
      obtain ⟨c, hfold, htotal⟩ := ih hrest
      refine ⟨c, by rw [List.foldlM_cons, hadd]; exact hfold, ?_⟩
      rw [htotal, hsum, List.map_cons, List.sum_cons, add_assoc]

theorem AddsUp.exists_sum? (h : AddsUp ds) :
    ∃ c, sum? ds = some c ∧ c.value = (ds.map value).sum := by
  have hzero : ∀ k, Representable ((0 : Decimal).value + ((ds.take k).map value).sum) := by
    intro k
    rw [zero_value, zero_add]
    exact h k
  obtain ⟨c, hfold, hvalue⟩ := exists_foldlM_add? hzero
  exact ⟨c, hfold, by rw [hvalue, zero_value, zero_add]⟩

theorem exists_units_sum (hds : ∀ d ∈ ds, d.scale ≤ s) :
    ∃ units : ℤ, (ds.map value).sum = units / 10 ^ s := by
  induction ds with
  | nil => exact ⟨0, by simp⟩
  | cons d rest ih =>
      obtain ⟨hscale, hrest⟩ := List.forall_mem_cons.mp hds
      obtain ⟨units, hunits⟩ := ih hrest
      refine ⟨d.signed * 10 ^ (s - d.scale) + units, ?_⟩
      rw [List.map_cons, List.sum_cons, value_at_scale hscale, hunits, ← add_div, Int.cast_add]

theorem sum_value_nonneg (hds : ∀ d ∈ ds, 0 ≤ d.value) : 0 ≤ (ds.map value).sum := by
  apply List.sum_nonneg
  intro worth hworth
  obtain ⟨d, hd, rfl⟩ := List.mem_map.mp hworth
  exact hds d hd

theorem addsUp_of_sum_lt (hds : ∀ d ∈ ds, d.scale ≤ s ∧ 0 ≤ d.value) (hs : s ≤ 28)
    (hlt : (ds.map value).sum * 10 ^ s < 2 ^ 96) : AddsUp ds := by
  intro k
  have hscale : ∀ d ∈ ds.take k, d.scale ≤ s := fun d hd => (hds d (List.mem_of_mem_take hd)).1
  have hfirst : 0 ≤ ((ds.take k).map value).sum :=
    sum_value_nonneg fun d hd => (hds d (List.mem_of_mem_take hd)).2
  have hrest : 0 ≤ ((ds.drop k).map value).sum :=
    sum_value_nonneg fun d hd => (hds d (List.mem_of_mem_drop hd)).2
  have hsplit : (ds.map value).sum = ((ds.take k).map value).sum + ((ds.drop k).map value).sum := by
    rw [← List.sum_append, ← List.map_append, List.take_append_drop]
  obtain ⟨units, hunits⟩ := exists_units_sum hscale
  have hworth : (units : ℚ) = ((ds.take k).map value).sum * 10 ^ s := by
    rw [hunits, div_mul_cancel₀ _ (pow_ten_pos s).ne']
  have hnonneg : (0 : ℚ) ≤ units := hworth ▸ mul_nonneg hfirst (pow_ten_pos s).le
  obtain ⟨units, rfl⟩ := Int.eq_ofNat_of_zero_le (Int.cast_nonneg_iff.mp hnonneg)
  have hfits : ((units : ℤ) : ℚ) < 2 ^ 96 := by
    calc ((units : ℤ) : ℚ) = ((ds.take k).map value).sum * 10 ^ s := hworth
      _ ≤ (ds.map value).sum * 10 ^ s := by
          rw [hsplit]
          exact mul_le_mul_of_nonneg_right (le_add_of_nonneg_right hrest) (pow_ten_pos s).le
      _ < 2 ^ 96 := hlt
  rw [hunits]
  exact representable_div (by exact_mod_cast hfits) hs

end Ledger.Decimal
