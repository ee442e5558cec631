import Ledger.Currency
import Ledger.Proofs.Decimal.Value
import Mathlib.Tactic.Ring

namespace Ledger

theorem roundDiv_of_dvd (tie : Tie) {n d : Nat} (hd : 0 < d) (h : d ∣ n) :
    roundDiv tie n d = n / d := by
  have hraises : tie.raises (n / d) (n % d) d = false := by
    unfold Tie.raises
    rw [Nat.mod_eq_zero_of_dvd h, mul_zero, Nat.compare_eq_lt.mpr hd]
  rw [roundDiv, hraises]
  rfl

namespace Decimal

variable {d : Decimal} {s : Nat}

theorem stripZeros_mul (mantissa scale : Nat) :
    (stripZeros mantissa scale).1 * 10 ^ (scale - (stripZeros mantissa scale).2) = mantissa := by
  induction scale generalizing mantissa with
  | zero => simp [stripZeros]
  | succ scale ih =>
      unfold stripZeros
      split
      · rename_i hzero
        have hle := stripZeros_snd_le (mantissa / 10) scale
        rw [Nat.succ_sub hle, pow_succ, ← mul_assoc, ih]
        exact Nat.div_mul_cancel (Nat.dvd_of_mod_eq_zero hzero)
      · simp

theorem pow_dvd_mantissa (hzero : d.mantissa ≠ 0) (h : d.normalize.scale ≤ s) :
    10 ^ (d.scale - s) ∣ d.mantissa := by
  have hscale : (stripZeros d.mantissa d.scale).2 ≤ s := by
    rw [normalize, if_neg hzero] at h
    exact h
  have hdvd : 10 ^ (d.scale - (stripZeros d.mantissa d.scale).2) ∣ d.mantissa :=
    ⟨_, (mul_comm _ _).trans (stripZeros_mul d.mantissa d.scale) |>.symm⟩
  exact (pow_dvd_pow 10 (Nat.sub_le_sub_left hscale d.scale)).trans hdvd

theorem value_eq_of_zero {a b : Decimal} (ha : a.mantissa = 0) (hb : b.mantissa = 0) :
    a.value = b.value := by
  rw [value_eq_zero.mpr ha, value_eq_zero.mpr hb]

theorem value_eq (d : Decimal) :
    d.value = (if d.negative then -1 else 1) * (d.mantissa : ℚ) / 10 ^ d.scale := by
  unfold value signed
  cases d.negative <;> simp

theorem value_addPlaces (count : Nat) (d : Decimal) : (addPlaces count d).value = d.value := by
  induction count generalizing d with
  | zero => rfl
  | succ count ih =>
      unfold addPlaces
      split
      · rw [ih, value_eq, value_eq, pow_succ, div_eq_div_iff (by positivity) (by positivity)]
        push_cast
        ring
      · rfl

theorem value_dropPlaces {count : Nat} (hcount : count ≤ d.scale) (h : 10 ^ count ∣ d.mantissa) :
    (dropPlaces count d).value = d.value := by
  unfold dropPlaces
  split
  · obtain ⟨q, hq⟩ := h
    have hdiv : roundDiv .up d.mantissa (Nat.pow 10 count) = q := by
      rw [Nat.pow_eq, roundDiv_of_dvd .up (by positivity) ⟨q, hq⟩, hq]
      exact Nat.mul_div_cancel_left q (by positivity)
    have hpow : (10 : ℚ) ^ d.scale = 10 ^ (d.scale - count) * 10 ^ count := by
      rw [← pow_add, Nat.sub_add_cancel hcount]
    rw [value_eq, value_eq, hpow, div_eq_div_iff (by positivity) (by positivity)]
    have hmantissa : (d.mantissa : ℚ) = 10 ^ count * q := by exact_mod_cast hq
    simp only [hdiv, hmantissa]
    ring
  · rename_i hnone
    rcases Nat.eq_zero_or_pos d.mantissa with hzero | hpos
    · exact value_eq_of_zero hzero hzero
    · obtain rfl : count = 0 := by omega
      rfl

theorem value_rescale (h : d.normalize.scale ≤ s) : (d.rescale s).value = d.value := by
  unfold rescale
  split
  · rename_i hzero
    exact value_eq_of_zero hzero hzero
  · rename_i hzero
    split
    · rename_i hlt
      exact value_dropPlaces (Nat.sub_le _ _) (pow_dvd_mantissa hzero h)
    · exact value_addPlaces _ d

end Decimal

namespace Currency

variable {amount scaled balance sum rest : Decimal} {code : String}

theorem scale?_spec (h : scale? amount code = some scaled) :
    scaled.scale = minorUnits code ∧ scaled.value = amount.value := by
  unfold scale? at h
  split at h
  · rename_i hplaces
    simp only at h
    split at h
    · rename_i hscale
      cases h
      exact ⟨hscale, Decimal.value_rescale hplaces⟩
    · cases h
  · cases h

theorem credit?_spec (hscale : amount.scale = balance.scale)
    (h : credit? balance amount = some sum) :
    sum.scale = balance.scale ∧ sum.value = balance.value + amount.value := by
  obtain ⟨hsum, hplaces⟩ := Option.filter_eq_some_iff.mp h
  have hplaces := of_decide_eq_true hplaces
  have hsigned := Decimal.signed_of_add? rfl hscale hsum hplaces
  exact ⟨hplaces, Decimal.value_of_signed_add rfl hscale hplaces hsigned⟩

theorem debit_spec (hscale : amount.scale = balance.scale) (hpos : 0 < amount.value)
    (hcovered : ¬balance < amount) (h : balance.sub? amount = some rest) :
    rest.scale = balance.scale ∧ rest.value = balance.value - amount.value := by
  have hle : amount.signed ≤ balance.signed := by
    rw [Decimal.lt_iff_value, not_lt] at hcovered
    exact (Decimal.signed_le_iff hscale rfl).mpr hcovered
  obtain ⟨hplaces, hsigned⟩ :=
    Decimal.sub?_of_le rfl hscale (Decimal.signed_pos_iff.mpr hpos) hle h
  exact ⟨hplaces, Decimal.value_of_signed_sub rfl hscale hplaces hsigned⟩

end Currency

end Ledger
