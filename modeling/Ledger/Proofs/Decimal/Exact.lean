import Ledger.Decimal.Text
import Ledger.Proofs.Decimal.Fits

/-!
Money is scaled and credited without rounding, and never refused where it fits. What comes out is
determined by the value that goes in, but for the sign that a zero may have.
-/

namespace Ledger

namespace Decimal

variable {a b c d : Decimal} {s mantissa : Nat} {negative : Bool}

/-- A zero that has kept a minus sign. -/
def IsNegativeZero (d : Decimal) : Prop :=
  d.negative = true ∧ d.mantissa = 0

instance (d : Decimal) : Decidable d.IsNegativeZero :=
  inferInstanceAs (Decidable (_ ∧ _))

theorem signed_eq_of_value (hscale : a.scale = b.scale) (hvalue : a.value = b.value) :
    a.signed = b.signed := by
  rw [value_of_scale hscale, value, div_left_inj' (pow_ten_pos _).ne'] at hvalue
  exact_mod_cast hvalue

theorem eq_of_value (hscale : a.scale = b.scale) (hvalue : a.value = b.value)
    (hsign : a.mantissa = 0 → a.negative = b.negative) : a = b := by
  have hsigned := signed_eq_of_value hscale hvalue
  have hmantissa : a.mantissa = b.mantissa := by
    rw [← natAbs_signed, hsigned, natAbs_signed]
  have hnegative : a.negative = b.negative := by
    by_cases hzero : a.mantissa = 0
    · exact hsign hzero
    · unfold signed at hsigned
      cases ha : a.negative <;> cases hb : b.negative <;> simp [ha, hb] at hsigned ⊢ <;> omega
  cases a
  cases b
  simp_all

theorem rescale_self (d : Decimal) : d.rescale d.scale = d := by
  unfold rescale
  split
  · simp [min_eq_left d.scale_le]
  · simp [addPlaces]

theorem negative_rescale (h : d.mantissa = 0) : (d.rescale s).negative = d.negative := by
  rw [rescale, if_pos h]

theorem not_isNegativeZero_of_ofDigits? (h : ofDigits? negative mantissa s = some c) :
    ¬c.IsNegativeZero := by
  unfold ofDigits? at h
  split at h
  · cases h
    rintro ⟨hnegative, hzero⟩
    simp_all
  · cases h

theorem not_isNegativeZero_of_add? (ha : ¬a.IsNegativeZero) (hb : ¬b.IsNegativeZero)
    (h : a.add? b = some c) : ¬c.IsNegativeZero := by
  unfold add? at h
  split at h
  · cases h
    exact hb
  split at h
  · cases h
    exact ha
  · obtain ⟨dropped, -, hdigits⟩ := List.exists_of_findSome?_eq_some h
    exact not_isNegativeZero_of_ofDigits? hdigits

end Decimal

namespace Currency

variable {amount other scaled balance sum : Decimal} {code : String} {s : Nat}

theorem scale?_of_zero (h : amount.mantissa = 0) (code : String) :
    scale? amount code = some (amount.rescale (minorUnits code)) := by
  have hvalue : amount.value = (0 : Int) / 10 ^ minorUnits code := by
    rw [Decimal.value_eq_zero.mpr h, Int.cast_zero, zero_div]
  obtain ⟨scaled, hscaled⟩ := exists_scale? hvalue (by norm_num)
  rw [hscaled, eq_rescale_of_scale? hscaled]

theorem scale?_of_scaled (h : scale? amount code = some scaled) :
    scale? scaled code = some scaled := by
  obtain ⟨hscale, -⟩ := scale?_spec h
  have hfits : Decimal.Fits (minorUnits code) scaled.value := hscale ▸ scaled.fits_value
  obtain ⟨again, hagain⟩ := exists_scale?_iff.mpr hfits
  rw [hagain, eq_rescale_of_scale? hagain, ← hscale, Decimal.rescale_self]

theorem scale?_congr (hvalue : amount.value = other.value)
    (hsign : amount.mantissa = 0 → amount.negative = other.negative) :
    scale? amount code = scale? other code := by
  cases hscaled : scale? amount code with
  | none =>
      rw [scale?_eq_none_iff, hvalue, ← scale?_eq_none_iff] at hscaled
      exact hscaled.symm
  | some scaled =>
      have hfits := exists_scale?_iff.mp ⟨scaled, hscaled⟩
      rw [hvalue] at hfits
      obtain ⟨scaled', hscaled'⟩ := exists_scale?_iff.mpr hfits
      obtain ⟨hscale, hworth⟩ := scale?_spec hscaled
      obtain ⟨hscale', hworth'⟩ := scale?_spec hscaled'
      rw [hscaled', Option.some_inj]
      refine Decimal.eq_of_value (hscale.trans hscale'.symm)
        (hworth.trans (hvalue.trans hworth'.symm)) ?_
      intro hzero
      have hamount : amount.mantissa = 0 := by
        rw [← Decimal.value_eq_zero, ← hworth, Decimal.value_eq_zero.mpr hzero]
      have hother : other.mantissa = 0 := by
        rw [← Decimal.value_eq_zero, ← hvalue, Decimal.value_eq_zero.mpr hamount]
      rw [eq_rescale_of_scale? hscaled, eq_rescale_of_scale? hscaled',
        Decimal.negative_rescale hamount, Decimal.negative_rescale hother, hsign hamount]

/-- An amount is scaled to a currency exactly if it is a whole number of minor units that can be
held there, and keeps its value. Amounts of the same value give the same result; only a zero keeps
the sign that it has. Scaling again changes nothing. -/
theorem scaling_exact_and_complete (amount : Decimal) (code : String) :
    ((∃ scaled, scale? amount code = some scaled) ↔
      ∃ units : ℤ, amount.value * 10 ^ minorUnits code = units ∧ units.natAbs ≤ 2 ^ 96 - 1) ∧
    (∀ scaled, scale? amount code = some scaled →
      scaled.value = amount.value ∧ scaled.scale = minorUnits code ∧
        scale? scaled code = some scaled) ∧
    (∀ other : Decimal, amount.value = other.value →
      (amount.mantissa = 0 → amount.negative = other.negative) →
        scale? amount code = scale? other code) ∧
    (amount.mantissa = 0 → ∃ scaled, scale? amount code = some scaled ∧ scaled.mantissa = 0 ∧
      scaled.scale = minorUnits code ∧ scaled.negative = amount.negative) := by
  refine ⟨?_, ?_, fun other => scale?_congr, ?_⟩
  · rw [exists_scale?_iff]
    refine exists_congr fun units => ?_
    rw [eq_div_iff (Decimal.pow_ten_pos _).ne', and_comm, Nat.le_sub_one_iff_lt (by norm_num)]
  · intro scaled hscaled
    obtain ⟨hscale, hvalue⟩ := scale?_spec hscaled
    exact ⟨hvalue, hscale, scale?_of_scaled hscaled⟩
  · intro hzero
    have hscaled := scale?_of_zero hzero code
    obtain ⟨hscale, hvalue⟩ := scale?_spec hscaled
    refine ⟨_, hscaled, ?_, hscale, Decimal.negative_rescale hzero⟩
    rw [← Decimal.value_eq_zero, hvalue, Decimal.value_eq_zero.mpr hzero]

/-- One dollar fifty, with two places too many and with one too few. -/
theorem scaling_exact_trailing_zeros :
    let long : Decimal := { negative := false, mantissa := 15000, scale := 4 }
    let short : Decimal := { negative := false, mantissa := 15, scale := 1 }
    long.value = short.value ∧ scale? long "USD" = some (.cents 150) ∧
      scale? long "USD" = scale? short "USD" ∧
      scale? (.cents 150) "USD" = some (.cents 150) := by
  intro long short
  obtain ⟨-, hspec, hsame, -⟩ := scaling_exact_and_complete long "USD"
  have hvalue : long.value = short.value := by
    norm_num [Decimal.value, Decimal.signed, long, short]
  have hscaled : scale? long "USD" = some (.cents 150) := by decide
  exact ⟨hvalue, hscaled, hsame short hvalue (by decide), (hspec _ hscaled).2.2⟩

/-- What is left of a number that is rounded away can be a zero with a sign. It is worth as much as
the plain zero and is scaled to another number. -/
theorem equal_zeros_scaled_apart :
    let small : Decimal := { negative := true, mantissa := 0, scale := 28 }
    Decimal.ofString? "-0.4e-28" = some small ∧ small.value = (0 : Decimal).value ∧
      (scale? small "USD").map Decimal.toText = some "-0.00" ∧
      (scale? 0 "USD").map Decimal.toText = some "0.00" ∧
      scale? small "USD" ≠ scale? 0 "USD" := by
  refine ⟨by decide +kernel, ?_, by decide +kernel, by decide +kernel, by decide⟩
  rw [Decimal.zero_value, Decimal.value_eq_zero]

theorem exists_credit?_iff_natAbs (ha : amount.scale = balance.scale) :
    (∃ sum, credit? balance amount = some sum) ↔
      (balance.signed + amount.signed).natAbs < 2 ^ 96 := by
  constructor
  · rintro ⟨sum, hsum⟩
    obtain ⟨hadd, hplaces⟩ := Option.filter_eq_some_iff.mp hsum
    rw [← Decimal.signed_of_add? rfl ha hadd (of_decide_eq_true hplaces), Decimal.natAbs_signed]
    exact sum.mantissa_lt
  · exact exists_credit? ha

/-- A credit goes through exactly if the sum of the digits fits where the balance stands, and is
that sum. -/
theorem credit_exact_and_complete (hb : balance.scale = s) (ha : amount.scale = s)
    (hbalance : ¬balance.IsNegativeZero) (hamount : ¬amount.IsNegativeZero) :
    ((∃ sum, credit? balance amount = some sum) ↔
      (balance.signed + amount.signed).natAbs ≤ 2 ^ 96 - 1) ∧
    (credit? balance amount = none ↔
      2 ^ 96 - 1 < (balance.signed + amount.signed).natAbs) ∧
    ∀ sum, credit? balance amount = some sum →
      sum.scale = s ∧ sum.signed = balance.signed + amount.signed ∧
        sum.value = balance.value + amount.value ∧ ¬sum.IsNegativeZero := by
  subst hb
  have hfits : (∃ sum, credit? balance amount = some sum) ↔
      (balance.signed + amount.signed).natAbs ≤ 2 ^ 96 - 1 := by
    rw [exists_credit?_iff_natAbs ha, Nat.le_sub_one_iff_lt (by norm_num)]
  refine ⟨hfits, ?_, ?_⟩
  · rw [← not_le, ← hfits, not_exists, Option.eq_none_iff_forall_ne_some]
  · intro sum hsum
    obtain ⟨hscale, hvalue⟩ := credit?_spec ha hsum
    obtain ⟨hadd, -⟩ := Option.filter_eq_some_iff.mp hsum
    exact ⟨hscale, Decimal.signed_of_add? rfl ha hadd hscale, hvalue,
      Decimal.not_isNegativeZero_of_add? hbalance hamount hadd⟩

/-- At the largest number of dollars and cents a cent can be taken off and not added. -/
theorem credit_exact_at_the_largest :
    let largest : Decimal := .cents (2 ^ 96 - 1)
    let cent : Decimal := .cents 1
    ¬largest.IsNegativeZero ∧ credit? largest cent = none ∧
      ∃ sum, credit? largest cent.neg = some sum ∧ sum.signed = 2 ^ 96 - 2 := by
  intro largest cent
  have hlargest : ¬largest.IsNegativeZero := by decide
  obtain ⟨-, hnone, -⟩ :=
    credit_exact_and_complete (rfl : largest.scale = 2) (rfl : cent.scale = 2) hlargest (by decide)
  obtain ⟨hsome, -, hsum⟩ :=
    credit_exact_and_complete (rfl : largest.scale = 2) (rfl : cent.neg.scale = 2) hlargest
      (by decide)
  obtain ⟨sum, hcredit⟩ := hsome.mpr (by decide)
  exact ⟨hlargest, hnone.mpr (by decide), sum, hcredit, (hsum sum hcredit).2.1⟩

end Currency

end Ledger
