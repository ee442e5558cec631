import Ledger.Proofs.Decimal.Rescale

/-!
When the arithmetic of money goes through: an amount can be held at the places of a currency if it
is a multiple of the minor unit that is not too large, and a sum of two amounts if it fits.
-/

namespace Ledger

namespace Decimal

variable {a b d : Decimal} {s : Nat}

theorem value_cents (count : Nat) (h : count < Nat.pow 2 96) :
    (cents count h).value = count / 100 := by
  norm_num [value, signed, cents]

theorem stripZeros_snd_le_of_dvd {mantissa scale : Nat} (h : 10 ^ (scale - s) ∣ mantissa) :
    (stripZeros mantissa scale).2 ≤ s := by
  induction scale generalizing mantissa with
  | zero => exact Nat.zero_le s
  | succ scale ih =>
      rcases Nat.lt_or_ge scale s with hlt | hge
      · exact (stripZeros_snd_le mantissa (scale + 1)).trans hlt
      · rw [Nat.succ_sub hge, pow_succ'] at h
        obtain ⟨rest, rfl⟩ := h
        rw [mul_assoc, stripZeros, if_pos (Nat.mul_mod_right 10 _)]
        apply ih
        rw [Nat.mul_div_cancel_left _ (by norm_num)]
        exact Nat.dvd_mul_right _ rest

theorem normalize_scale_le (h : 10 ^ (d.scale - s) ∣ d.mantissa) : d.normalize.scale ≤ s := by
  unfold normalize
  split
  · exact Nat.zero_le s
  · exact stripZeros_snd_le_of_dvd h

theorem scale_dropPlaces (count : Nat) (d : Decimal) :
    (dropPlaces count d).scale = d.scale - count := by
  unfold dropPlaces
  split <;> rfl

theorem scale_addPlaces {count : Nat} (hdigits : d.mantissa * 10 ^ count < 2 ^ 96)
    (hplaces : d.scale + count ≤ 28) : (addPlaces count d).scale = d.scale + count := by
  induction count generalizing d with
  | zero => rfl
  | succ count ih =>
      have hlt : 10 * d.mantissa < Nat.pow 2 96 := by
        refine lt_of_le_of_lt ?_ hdigits
        rw [pow_succ', ← mul_assoc, mul_comm 10]
        exact Nat.le_mul_of_pos_right _ (by positivity)
      rw [addPlaces, dif_pos ⟨hlt, by omega⟩, ih]
      · exact Nat.succ_add_eq_add_succ d.scale count
      · show 10 * d.mantissa * 10 ^ count < 2 ^ 96
        rw [mul_comm 10, mul_assoc, ← pow_succ']
        exact hdigits
      · show d.scale + 1 + count ≤ 28
        omega

theorem mantissa_of_value {n : Int} (h : d.value = n / 10 ^ s) :
    d.mantissa * 10 ^ s = n.natAbs * 10 ^ d.scale := by
  rw [value, div_eq_div_iff (pow_ten_pos _).ne' (pow_ten_pos _).ne'] at h
  have hsigned : d.signed * 10 ^ s = n * 10 ^ d.scale := by exact_mod_cast h
  have habs := congrArg Int.natAbs hsigned
  simpa [Int.natAbs_mul, Int.natAbs_pow, natAbs_signed] using habs

theorem mantissa_of_lt {n : Int} (h : d.value = n / 10 ^ s) (hlt : s < d.scale) :
    d.mantissa = n.natAbs * 10 ^ (d.scale - s) := by
  apply Nat.eq_of_mul_eq_mul_right (show 0 < 10 ^ s by positivity)
  rw [mantissa_of_value h, mul_assoc, ← pow_add, Nat.sub_add_cancel hlt.le]

theorem normalize_scale_le_of_value {n : Int} (h : d.value = n / 10 ^ s) :
    d.normalize.scale ≤ s := by
  apply normalize_scale_le
  rcases lt_or_ge s d.scale with hlt | hge
  · exact ⟨n.natAbs, by rw [mantissa_of_lt h hlt, mul_comm]⟩
  · rw [Nat.sub_eq_zero_of_le hge]
    exact one_dvd _

theorem scale_rescale {n : Int} (hs : s ≤ 28) (hvalue : d.value = n / 10 ^ s)
    (hfits : n.natAbs < 2 ^ 96) : d.normalize.scale ≤ s ∧ (d.rescale s).scale = s := by
  refine ⟨normalize_scale_le_of_value hvalue, ?_⟩
  unfold rescale
  rcases lt_or_ge s d.scale with hlt | hge
  · rw [if_pos hlt]
    split
    · exact min_eq_left hs
    · rw [scale_dropPlaces]
      omega
  · have hdigits : d.mantissa * 10 ^ (s - d.scale) = n.natAbs := by
      refine Nat.eq_of_mul_eq_mul_right (show 0 < 10 ^ d.scale by positivity) ?_
      rw [mul_assoc, ← pow_add, Nat.sub_add_cancel hge, mantissa_of_value hvalue]
    rw [if_neg (Nat.not_lt.mpr hge)]
    split
    · exact min_eq_left hs
    · rw [scale_addPlaces (hdigits ▸ hfits) (by omega)]
      exact Nat.add_sub_cancel' hge

/-- Whether so much can be held at the given places: as a whole number of units of the last place, of
at most 96 bits. -/
def Fits (s : Nat) (worth : ℚ) : Prop :=
  ∃ units : Int, units.natAbs < 2 ^ 96 ∧ worth = units / 10 ^ s

theorem fits_value (d : Decimal) : Fits d.scale d.value :=
  ⟨d.signed, d.natAbs_signed ▸ d.mantissa_lt, rfl⟩

theorem natAbs_add_lt (ha : a.scale = s) (hb : b.scale = s) (hnonneg : 0 ≤ a.value + b.value)
    (hlt : (a.value + b.value) * 10 ^ s < 2 ^ 96) : (a.signed + b.signed).natAbs < 2 ^ 96 := by
  have hvalue : (a.value + b.value) * 10 ^ s = ((a.signed + b.signed : Int) : ℚ) := by
    rw [value_of_scale ha, value_of_scale hb, ← add_div, div_mul_cancel₀ _ (pow_ten_pos s).ne',
      Int.cast_add]
  have hpos : (0 : ℚ) ≤ ((a.signed + b.signed : Int) : ℚ) := by
    rw [← hvalue]
    exact mul_nonneg hnonneg (pow_ten_pos s).le
  rw [hvalue] at hlt
  have hpos : 0 ≤ a.signed + b.signed := by exact_mod_cast hpos
  have hlt : a.signed + b.signed < 2 ^ 96 := by exact_mod_cast hlt
  omega

end Decimal

namespace Currency

variable {balance amount : Decimal} {code : String}

theorem exists_scale? {n : Int} (hvalue : amount.value = n / 10 ^ minorUnits code)
    (hfits : n.natAbs < 2 ^ 96) : ∃ scaled, scale? amount code = some scaled := by
  have hplaces : minorUnits code ≤ 28 := (minorUnits_le code).trans (by norm_num)
  obtain ⟨hnormal, hscale⟩ := Decimal.scale_rescale hplaces hvalue hfits
  exact ⟨amount.rescale (minorUnits code), by rw [scale?, if_pos hnormal, if_pos hscale]⟩

theorem exists_credit? (hscale : amount.scale = balance.scale)
    (hfits : (balance.signed + amount.signed).natAbs < 2 ^ 96) :
    ∃ sum, credit? balance amount = some sum := by
  obtain ⟨sum, hadd, hplaces⟩ :
      ∃ sum, balance.add? amount = some sum ∧ sum.scale = balance.scale := by
    rcases eq_or_ne balance.mantissa 0 with hzero | hzero
    · exact ⟨amount, by rw [Decimal.add?, if_pos hzero], hscale⟩
    · rcases eq_or_ne amount.mantissa 0 with hzero' | hzero'
      · exact ⟨balance, by rw [Decimal.add?, if_neg hzero, if_pos hzero'], rfl⟩
      · rw [Decimal.add?_of_scale rfl hscale hzero hzero',
          Decimal.fit?_of_lt hfits balance.scale_le]
        exact ⟨_, rfl, rfl⟩
  exact ⟨sum, by rw [credit?, hadd, Option.filter_some, if_pos (by simpa using hplaces)]⟩

theorem exists_scale?_iff :
    (∃ scaled, scale? amount code = some scaled) ↔ Decimal.Fits (minorUnits code) amount.value := by
  constructor
  · rintro ⟨scaled, hscaled⟩
    obtain ⟨hscale, hvalue⟩ := scale?_spec hscaled
    rw [← hscale, ← hvalue]
    exact scaled.fits_value
  · rintro ⟨units, hfits, hvalue⟩
    exact exists_scale? hvalue hfits

theorem scale?_eq_none_iff :
    scale? amount code = none ↔ ¬Decimal.Fits (minorUnits code) amount.value := by
  rw [← exists_scale?_iff, not_exists, Option.eq_none_iff_forall_ne_some]

theorem eq_rescale_of_scale? {scaled : Decimal} (h : scale? amount code = some scaled) :
    scaled = amount.rescale (minorUnits code) := by
  unfold scale? at h
  split at h
  · exact (Option.some.inj (Option.ite_none_right_eq_some.mp h).2).symm
  · cases h

theorem exists_credit?_iff (hscale : amount.scale = balance.scale) :
    (∃ sum, credit? balance amount = some sum) ↔
      Decimal.Fits balance.scale (balance.value + amount.value) := by
  constructor
  · rintro ⟨sum, hsum⟩
    obtain ⟨hplaces, hvalue⟩ := credit?_spec hscale hsum
    rw [← hplaces, ← hvalue]
    exact sum.fits_value
  · rintro ⟨units, hfits, hvalue⟩
    have hunits : balance.signed + amount.signed = units := by
      rw [Decimal.value, Decimal.value_of_scale hscale, ← add_div,
        div_left_inj' (Decimal.pow_ten_pos _).ne'] at hvalue
      exact_mod_cast hvalue
    rw [← hunits] at hfits
    exact exists_credit? hscale hfits

theorem credit?_eq_none_iff (hscale : amount.scale = balance.scale) :
    credit? balance amount = none ↔
      ¬Decimal.Fits balance.scale (balance.value + amount.value) := by
  rw [← exists_credit?_iff hscale, not_exists, Option.eq_none_iff_forall_ne_some]

theorem exists_debit (hscale : amount.scale = balance.scale) (hpos : 0 < amount.value)
    (hcovered : ¬balance < amount) : ∃ rest, balance.sub? amount = some rest := by
  rw [Decimal.lt_iff_value, not_lt] at hcovered
  have hle : amount.signed ≤ balance.signed := (Decimal.signed_le_iff hscale rfl).mpr hcovered
  obtain ⟨rest, hrest, -⟩ :=
    Decimal.exists_sub? rfl hscale (Decimal.signed_pos_iff.mpr hpos) hle
  exact ⟨rest, hrest⟩

end Currency

end Ledger
