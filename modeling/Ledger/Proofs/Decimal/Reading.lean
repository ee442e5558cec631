import Ledger.Decimal.Text
import Ledger.Proofs.Decimal.Fits
import Mathlib.Data.List.TakeWhile
import Mathlib.Data.Nat.Digits.Defs

/-!
What a text denotes and what is read from it. Both are the same number as long as the digits fit;
digits that do not fit are rounded away, before the power of ten and after it.
-/

namespace Ledger.Decimal

/-- The number that the digits among some characters make up. -/
def digitsValue (cs : List Char) : ℕ :=
  Nat.ofDigits 10 (cs.filterMap Numeral.digit?).reverse

def digitCount (cs : List Char) : ℕ :=
  (cs.filterMap Numeral.digit?).length

/-- The number of digits after the point. -/
def places (cs : List Char) : ℕ :=
  digitCount (cs.dropWhile (· != '.'))

/-- The number that a text in positional notation denotes; underscores do not count. -/
def positional (cs : List Char) : ℚ :=
  (if cs.head? = some '-' then -1 else 1) * (digitsValue cs / 10 ^ places cs)

/-- The integer that is written after an `e`. -/
def exponent : List Char → ℤ
  | '-' :: digits => -digitsValue digits
  | digits => digitsValue digits

def isMark (c : Char) : Bool :=
  c = 'e' || c = 'E'

/-- What stands before the first `e` of either case, or the whole text. -/
def significand (cs : List Char) : List Char :=
  cs.takeWhile (!isMark ·)

/-- The number that a text denotes, however many digits that takes. -/
def denoted (cs : List Char) : ℚ :=
  positional (significand cs) * 10 ^ exponent ((cs.dropWhile (!isMark ·)).drop 1)

/-- Whether a number is one that decimals can hold. -/
def Representable (q : ℚ) : Prop :=
  ∃ d : Decimal, d.value = q

variable {d : Decimal} {negative point started : Bool} {mantissa scale n : ℕ} {c : Char}
  {cs : List Char} {q : ℚ}

theorem value_neg (d : Decimal) : d.neg.value = -d.value := by
  rw [value, value, signed_neg, Int.cast_neg, neg_div]
  rfl

theorem Representable.neg (h : Representable q) : Representable (-q) := by
  obtain ⟨d, rfl⟩ := h
  exact ⟨d.neg, value_neg d⟩

theorem Representable.exists_mantissa (h : Representable q) (hq : 0 ≤ q) :
    ∃ mantissa scale : ℕ, mantissa < 2 ^ 96 ∧ scale ≤ 28 ∧ q = mantissa / 10 ^ scale := by
  obtain ⟨d, rfl⟩ := h
  exact ⟨d.mantissa, d.scale, d.mantissa_lt, d.scale_le, value_of_nonneg hq⟩

section Digits

theorem digitCount_cons_of_none (h : Numeral.digit? c = none) (cs : List Char) :
    digitCount (c :: cs) = digitCount cs := by
  rw [digitCount, List.filterMap_cons_none h, digitCount]

theorem digitsValue_cons_of_none (h : Numeral.digit? c = none) (cs : List Char) :
    digitsValue (c :: cs) = digitsValue cs := by
  rw [digitsValue, List.filterMap_cons_none h, digitsValue]

theorem digitCount_cons (h : Numeral.digit? c = some n) (cs : List Char) :
    digitCount (c :: cs) = digitCount cs + 1 := by
  rw [digitCount, List.filterMap_cons_some h, List.length_cons, digitCount]

theorem digitsValue_cons (h : Numeral.digit? c = some n) (cs : List Char) :
    digitsValue (c :: cs) = n * 10 ^ digitCount cs + digitsValue cs := by
  rw [digitsValue, List.filterMap_cons_some h, List.reverse_cons, Nat.ofDigits_append,
    List.length_reverse, Nat.ofDigits_singleton, digitsValue, digitCount]
  ring

theorem places_cons (h : c ≠ '.') (cs : List Char) : places (c :: cs) = places cs := by
  rw [places, List.dropWhile_cons_of_pos (by simpa using h), places]

theorem places_point (cs : List Char) : places ('.' :: cs) = digitCount cs := by
  rw [places, List.dropWhile_cons_of_neg (by simp)]
  exact digitCount_cons_of_none rfl cs

theorem digit?_lt (h : Numeral.digit? c = some n) : n < 10 := by
  unfold Numeral.digit? at h
  split at h
  · rename_i hrange
    have hle : c.toNat ≤ '9'.toNat := hrange.2
    have hnine : '9'.toNat = 57 := rfl
    have hzero : '0'.toNat = 48 := rfl
    cases h
    omega
  · cases h

theorem digitsValue_lt (cs : List Char) : digitsValue cs < 10 ^ digitCount cs := by
  rw [digitsValue, digitCount, ← List.length_reverse]
  apply Nat.ofDigits_lt_base_pow_length (by norm_num)
  intro n hn
  obtain ⟨c, -, hc⟩ := List.mem_filterMap.mp (List.mem_reverse.mp hn)
  exact digit?_lt hc

end Digits

/-- The number that digits make up with those that have been read before them. -/
def ahead (point : Bool) (mantissa scale : ℕ) (cs : List Char) : ℚ :=
  ((mantissa * 10 ^ digitCount cs + digitsValue cs : ℕ) : ℚ) /
    10 ^ (scale + if point then digitCount cs else places cs)

theorem ahead_nonneg (point : Bool) (mantissa scale : ℕ) (cs : List Char) :
    0 ≤ ahead point mantissa scale cs :=
  div_nonneg (Nat.cast_nonneg _) (pow_ten_pos _).le

theorem ahead_underscore (point : Bool) (mantissa scale : ℕ) (cs : List Char) :
    ahead point mantissa scale ('_' :: cs) = ahead point mantissa scale cs := by
  rw [ahead, digitCount_cons_of_none rfl, digitsValue_cons_of_none rfl, places_cons (by decide),
    ahead]

theorem ahead_point (mantissa scale : ℕ) (cs : List Char) :
    ahead false mantissa scale ('.' :: cs) = ahead true mantissa scale cs := by
  rw [ahead, digitCount_cons_of_none rfl, digitsValue_cons_of_none rfl, places_point, ahead]
  rfl

theorem ahead_digit (hdot : c ≠ '.') (hc : Numeral.digit? c = some n) (point : Bool)
    (mantissa scale : ℕ) (cs : List Char) :
    ahead point mantissa scale (c :: cs) =
      ahead point (10 * mantissa + n) (if point then scale + 1 else scale) cs := by
  have hdigits : mantissa * 10 ^ (digitCount cs + 1) + (n * 10 ^ digitCount cs + digitsValue cs) =
      (10 * mantissa + n) * 10 ^ digitCount cs + digitsValue cs := by
    ring
  rw [ahead, digitCount_cons hc, digitsValue_cons hc, places_cons hdot, hdigits, ahead]
  cases point with
  | true => rw [if_pos rfl, if_pos rfl, if_pos rfl, Nat.succ_add_eq_add_succ]
  | false => rfl

theorem ahead_of_digitsValue (h : digitsValue cs = 0) (mantissa scale : ℕ) :
    ahead true mantissa scale cs = mantissa / 10 ^ scale := by
  rw [ahead, h, if_pos rfl, add_zero, pow_add, Nat.cast_mul, Nat.cast_pow, Nat.cast_ofNat]
  exact mul_div_mul_right _ _ (pow_ten_pos _).ne'

theorem digitsValue_eq_zero (hfull : 28 ≤ scale ∨
      2 ^ 96 * 10 ^ digitCount cs ≤ 10 * (mantissa * 10 ^ digitCount cs + digitsValue cs))
    (h : Representable (ahead true mantissa scale cs)) : digitsValue cs = 0 := by
  obtain ⟨m, s, hm, hs, hvalue⟩ := h.exists_mantissa (ahead_nonneg _ _ _ _)
  rw [ahead, if_pos rfl, div_eq_div_iff (pow_ten_pos _).ne' (pow_ten_pos _).ne'] at hvalue
  have hunits : (mantissa * 10 ^ digitCount cs + digitsValue cs) * 10 ^ s =
      m * 10 ^ (scale + digitCount cs) := by
    exact_mod_cast hvalue
  have hlt := digitsValue_lt cs
  generalize digitsValue cs = rest at *
  generalize digitCount cs = count at *
  rcases Nat.lt_or_ge scale s with hlt' | hle
  · obtain ⟨more, rfl⟩ := Nat.exists_eq_add_of_lt hlt'
    have hfull := hfull.resolve_left (by omega)
    have hsame : (mantissa * 10 ^ count + rest) * 10 ^ (more + 1) = m * 10 ^ count := by
      apply Nat.eq_of_mul_eq_mul_right (show 0 < 10 ^ scale by positivity)
      calc (mantissa * 10 ^ count + rest) * 10 ^ (more + 1) * 10 ^ scale
          = (mantissa * 10 ^ count + rest) * 10 ^ (scale + more + 1) := by ring
        _ = m * 10 ^ (scale + count) := hunits
        _ = m * 10 ^ count * 10 ^ scale := by ring
    have hone : 10 * (mantissa * 10 ^ count + rest) ≤
        (mantissa * 10 ^ count + rest) * 10 ^ (more + 1) := by
      rw [mul_comm 10]
      exact Nat.mul_le_mul_left _ (Nat.le_self_pow (Nat.succ_ne_zero more) 10)
    have hle : 2 ^ 96 ≤ m := by
      apply Nat.le_of_mul_le_mul_right _ (show 0 < 10 ^ count by positivity)
      exact (hfull.trans hone).trans hsame.le
    exact absurd hm (Nat.not_lt.mpr hle)
  · obtain ⟨more, rfl⟩ := Nat.exists_eq_add_of_le hle
    have hsame : mantissa * 10 ^ count + rest = m * 10 ^ more * 10 ^ count := by
      apply Nat.eq_of_mul_eq_mul_right (show 0 < 10 ^ s by positivity)
      rw [hunits]
      ring
    have hdvd : 10 ^ count ∣ rest :=
      (Nat.dvd_add_right (Nat.dvd_mul_left _ mantissa)).mp (hsame ▸ Nat.dvd_mul_left _ _)
    exact Nat.eq_zero_of_dvd_of_lt hdvd hlt

theorem no_room_of_digit (hc : Numeral.digit? c = some n)
    (h : 2 ^ 96 ≤ 10 * mantissa + n) (cs : List Char) :
    2 ^ 96 * 10 ^ digitCount (c :: cs) ≤
      10 * (mantissa * 10 ^ digitCount (c :: cs) + digitsValue (c :: cs)) := by
  rw [digitCount_cons hc, digitsValue_cons hc]
  calc 2 ^ 96 * 10 ^ (digitCount cs + 1)
      ≤ (10 * mantissa + n) * 10 ^ (digitCount cs + 1) := Nat.mul_le_mul_right _ h
    _ = 10 * (mantissa * 10 ^ (digitCount cs + 1) + n * 10 ^ digitCount cs) := by ring
    _ ≤ 10 * (mantissa * 10 ^ (digitCount cs + 1) +
          (n * 10 ^ digitCount cs + digitsValue cs)) := by omega

theorem digit_eq_zero (hc : Numeral.digit? c = some n) (h : digitsValue (c :: cs) = 0) : n = 0 := by
  rw [digitsValue_cons hc] at h
  have hmul : n * 10 ^ digitCount cs = 0 := Nat.eq_zero_of_add_eq_zero_right h
  exact (Nat.mul_eq_zero.mp hmul).resolve_right (by positivity)

theorem value_of_roundBy_zero (h : roundBy negative mantissa scale 0 = some d) :
    d.value = (if negative then -1 else 1) * (mantissa / 10 ^ scale) := by
  rw [roundBy, if_pos (by norm_num)] at h
  exact value_of_ofDigits? h

theorem value_of_readDigits (hpoint : point = false → scale = 0)
    (h : readDigits negative point started mantissa scale cs = some d)
    (hrep : Representable (ahead point mantissa scale cs)) :
    d.value = (if negative then -1 else 1) * ahead point mantissa scale cs := by
  induction cs generalizing point started mantissa scale with
  | nil =>
      rw [readDigits] at h
      split at h
      · rw [value_of_ofDigits? h]
        cases point <;> simp [ahead, digitCount, digitsValue, places]
      · cases h
  | cons c rest ih =>
      rw [readDigits] at h
      split at h
      · rename_i hc
        subst hc
        split at h
        · cases h
        · rename_i hno
          obtain rfl : point = false := by simpa using hno
          rw [ahead_point] at hrep ⊢
          exact ih (by simp) h hrep
      rename_i hdot
      split at h
      · rename_i hc
        subst hc
        rw [ahead_underscore] at hrep ⊢
        split at h
        · cases h
        split at h
        · rename_i hstop
          obtain ⟨rfl, rfl⟩ : point = true ∧ scale = 28 := by simpa using hstop
          rw [ahead_of_digitsValue (digitsValue_eq_zero (.inl le_rfl) hrep)]
          split at h
          · exact value_of_ofDigits? h
          · cases h
        · exact ih hpoint h hrep
      · obtain ⟨digit, hdigit, h⟩ := Option.bind_eq_some_iff.mp h
        split at h
        · rename_i hstop
          obtain ⟨rfl, hroom⟩ : point = true ∧ (scale = 28 ∨ 2 ^ 96 ≤ 10 * mantissa + digit) := by
            simpa using hstop
          have hzero : digitsValue (c :: rest) = 0 :=
            digitsValue_eq_zero (hroom.imp Eq.ge fun hlarge => no_room_of_digit hdigit hlarge rest)
              hrep
          obtain rfl := digit_eq_zero hdigit hzero
          rw [ahead_of_digitsValue hzero]
          split at h
          · exact value_of_roundBy_zero h
          · cases h
        · split at h
          · cases h
          · rw [ahead_digit hdot hdigit] at hrep ⊢
            refine ih ?_ h hrep
            intro hwhole
            simp [hwhole, hpoint hwhole]

theorem positional_minus (cs : List Char) : positional ('-' :: cs) = -1 * ahead false 0 0 cs := by
  rw [positional, digitsValue_cons_of_none rfl, places_cons (by decide), ahead, List.head?_cons,
    if_pos rfl]
  simp

theorem positional_of_head? (h : cs.head? ≠ some '-') : positional cs = 1 * ahead false 0 0 cs := by
  rw [positional, ahead, if_neg h]
  simp

theorem ahead_plus (cs : List Char) : ahead false 0 0 ('+' :: cs) = ahead false 0 0 cs := by
  rw [ahead, digitCount_cons_of_none rfl, digitsValue_cons_of_none rfl, places_cons (by decide),
    ahead]

theorem value_of_readPlain? (h : readPlain? cs = some d) (hrep : Representable (positional cs)) :
    d.value = positional cs := by
  unfold readPlain? at h
  split at h
  · rename_i rest
    rw [positional_minus] at hrep ⊢
    refine value_of_readDigits (fun _ => rfl) h ?_
    simpa using hrep.neg
  · rename_i rest
    rw [positional_of_head? (by simp), ahead_plus] at hrep ⊢
    rw [one_mul] at hrep
    exact value_of_readDigits (fun _ => rfl) h hrep
  · rename_i hminus _
    have hhead : cs.head? ≠ some '-' := by
      intro hhead
      obtain ⟨rest, rfl⟩ := List.head?_eq_some_iff.mp hhead
      exact hminus rest rfl
    rw [positional_of_head? hhead] at hrep ⊢
    rw [one_mul] at hrep
    exact value_of_readDigits (fun _ => rfl) h hrep

theorem isMark_of_digit? (h : (Numeral.digit? c).isSome = true) : isMark c = false := by
  unfold isMark
  rcases Decidable.em (c = 'e' ∨ c = 'E') with (rfl | rfl) | hother
  · cases h
  · cases h
  · simpa using hother

theorem isMark_of_isTail (h : isTail cs = true) : ∀ c ∈ cs, isMark c = false := by
  intro c hc
  have hchar := List.all_eq_true.mp h c hc
  rcases (Bool.or_eq_true _ _).mp hchar with hunderscore | hdigit
  · rw [of_decide_eq_true hunderscore]
    rfl
  · exact isMark_of_digit? hdigit

theorem isMark_of_readDigits (h : readDigits negative point started mantissa scale cs = some d) :
    ∀ c ∈ cs, isMark c = false := by
  induction cs generalizing point started mantissa scale with
  | nil => simp
  | cons c rest ih =>
      rw [readDigits] at h
      rw [List.forall_mem_cons]
      split at h
      · rename_i hc
        subst hc
        split at h
        · cases h
        · exact ⟨rfl, ih h⟩
      split at h
      · rename_i hc
        subst hc
        refine ⟨rfl, ?_⟩
        split at h
        · cases h
        split at h
        · split at h
          · rename_i htail
            exact isMark_of_isTail htail
          · cases h
        · exact ih h
      · obtain ⟨digit, hdigit, h⟩ := Option.bind_eq_some_iff.mp h
        refine ⟨isMark_of_digit? (Option.isSome_of_eq_some hdigit), ?_⟩
        split at h
        · split at h
          · rename_i htail
            exact isMark_of_isTail htail
          · cases h
        · split at h
          · cases h
          · exact ih h

theorem isMark_of_readPlain? (h : readPlain? cs = some d) : ∀ c ∈ cs, isMark c = false := by
  unfold readPlain? at h
  split at h
  · exact List.forall_mem_cons.mpr ⟨rfl, isMark_of_readDigits h⟩
  · exact List.forall_mem_cons.mpr ⟨rfl, isMark_of_readDigits h⟩
  · exact isMark_of_readDigits h

theorem readFrom_eq (h : Numeral.readFrom mantissa cs = some n) :
    n = mantissa * 10 ^ digitCount cs + digitsValue cs := by
  induction cs generalizing mantissa with
  | nil =>
      cases h
      simp [digitCount, digitsValue]
  | cons c rest ih =>
      obtain ⟨digit, hdigit, h⟩ := Option.bind_eq_some_iff.mp h
      rw [ih h, digitCount_cons hdigit, digitsValue_cons hdigit]
      ring

theorem digitsValue_of_read? (h : Numeral.read? cs = some n) : digitsValue cs = n := by
  unfold Numeral.read? at h
  split at h
  · cases h
  · rw [readFrom_eq h, zero_mul, zero_add]

theorem digitsValue_of_readSigned? (h : Numeral.readSigned? cs = some n) : digitsValue cs = n := by
  unfold Numeral.readSigned? at h
  split at h
  · rw [digitsValue_cons_of_none rfl]
    exact digitsValue_of_read? h
  · exact digitsValue_of_read? h

theorem value_of_shiftLeft? {base : Decimal} (h : base.shiftLeft? n = some d) :
    d.value = base.value * 10 ^ n := by
  unfold shiftLeft? at h
  split at h
  · rename_i hle
    cases h
    obtain ⟨more, hmore⟩ := Nat.exists_eq_add_of_le hle
    rw [value_eq, value_eq, div_mul_eq_mul_div, div_eq_div_iff (by positivity) (by positivity)]
    simp only [hmore, Nat.add_sub_cancel_left, pow_add]
    ring
  · split at h
    · cases h
    · rename_i hlt _
      obtain ⟨more, rfl⟩ := Nat.exists_eq_add_of_lt (Nat.lt_of_not_le hlt)
      rw [value_of_ofDigits? h, value_eq, Nat.pow_eq, add_assoc, Nat.add_sub_cancel_left,
        div_mul_eq_mul_div, pow_add (10 : ℚ)]
      push_cast
      field_simp

theorem shiftRight?_spec {base : Decimal} (h : base.shiftRight? n = some d) :
    n ≤ 28 ∧ d.value =
      (if base.scale + n ≤ 28 then base else base.rescale (28 - n)).value / 10 ^ n := by
  have hfits : ∀ (fitted : Decimal),
      (if h : n ≤ 28 ∧ fitted.scale + n ≤ 28 then
        some { fitted with scale := fitted.scale + n, scale_le := h.2 } else none) = some d →
      n ≤ 28 ∧ d.value = fitted.value / 10 ^ n := by
    intro fitted h
    split at h
    · rename_i hfits
      cases h
      refine ⟨hfits.1, ?_⟩
      rw [value_eq, value_eq, pow_add, div_div]
    · cases h
  exact hfits _ h

theorem normalize_scale_le_of_div {base : Decimal} (hn : n ≤ 28)
    (hrep : Representable (base.value / 10 ^ n)) : base.normalize.scale ≤ 28 - n := by
  obtain ⟨d, hd⟩ := hrep
  have hplaces : (10 : ℚ) ^ (28 - d.scale) * 10 ^ d.scale = 10 ^ (28 - n) * 10 ^ n := by
    rw [← pow_add, ← pow_add, Nat.sub_add_cancel d.scale_le, Nat.sub_add_cancel hn]
  apply normalize_scale_le_of_value (n := d.signed * 10 ^ (28 - d.scale))
  rw [eq_div_iff (pow_ten_pos _).ne']
  calc base.value * 10 ^ (28 - n)
      = d.value * (10 ^ (28 - n) * 10 ^ n) := by
        rw [hd, mul_left_comm, mul_comm, div_mul_cancel₀ _ (pow_ten_pos n).ne']
    _ = d.value * 10 ^ d.scale * 10 ^ (28 - d.scale) := by
        rw [← hplaces]
        ring
    _ = (d.signed * 10 ^ (28 - d.scale) : ℤ) := by
        rw [value, div_mul_cancel₀ _ (pow_ten_pos _).ne']
        push_cast
        rfl

theorem value_of_shiftRight? {base : Decimal} (h : base.shiftRight? n = some d)
    (hrep : Representable (base.value / 10 ^ n)) : d.value = base.value / 10 ^ n := by
  obtain ⟨hn, hvalue⟩ := shiftRight?_spec h
  rw [hvalue]
  split
  · rfl
  · rw [value_rescale (normalize_scale_le_of_div hn hrep)]

/-- Whether a text can be read without rounding: its digits before the power of ten can be held, and
so can what it denotes. -/
def Exact (cs : List Char) : Prop :=
  Representable (positional (significand cs)) ∧ Representable (denoted cs)

theorem readScientific?_spec (h : readScientific? cs = some d) :
    ∃ (base : Decimal) (n : ℕ), readPlain? (significand cs) = some base ∧
      ((exponent ((cs.dropWhile (!isMark ·)).drop 1) = -(n : ℤ) ∧ base.shiftRight? n = some d) ∨
        (exponent ((cs.dropWhile (!isMark ·)).drop 1) = n ∧ base.shiftLeft? n = some d)) := by
  unfold readScientific? at h
  simp only [List.span_eq_takeWhile_dropWhile] at h
  split at h
  · cases h
  · rename_i start mark power hspan
    obtain ⟨hstart, hpower⟩ := Prod.mk.inj hspan
    have hpower : (cs.dropWhile (!isMark ·)).drop 1 = power := congrArg (List.drop 1) hpower
    obtain ⟨base, hbase, h⟩ := Option.bind_eq_some_iff.mp h
    rw [← hstart] at hbase
    rw [hpower]
    split at h
    · obtain ⟨n, hn, h⟩ := Option.bind_eq_some_iff.mp h
      exact ⟨base, n, hbase, .inl ⟨by rw [exponent, digitsValue_of_readSigned? hn], h⟩⟩
    · rename_i hminus
      obtain ⟨n, hn, h⟩ := Option.bind_eq_some_iff.mp h
      refine ⟨base, n, hbase, .inr ⟨?_, h⟩⟩
      rw [exponent, digitsValue_of_readSigned? hn]
      exact hminus

theorem value_of_readScientific? (h : readScientific? cs = some d) :
    d.value = denoted cs ↔ Exact cs := by
  obtain ⟨base, n, hbase, ⟨hexponent, hshift⟩ | ⟨hexponent, hshift⟩⟩ := readScientific?_spec h
  · have hdenoted : denoted cs = positional (significand cs) / 10 ^ n := by
      rw [denoted, hexponent, zpow_neg, zpow_natCast, div_eq_mul_inv]
    constructor
    · intro hvalue
      refine ⟨?_, d, hvalue⟩
      rw [hdenoted, (shiftRight?_spec hshift).2, div_left_inj' (pow_ten_pos n).ne'] at hvalue
      exact ⟨_, hvalue⟩
    · rintro ⟨hrep, hrep'⟩
      rw [hdenoted, ← value_of_readPlain? hbase hrep] at hrep' ⊢
      exact value_of_shiftRight? hshift hrep'
  · have hdenoted : denoted cs = positional (significand cs) * 10 ^ n := by
      rw [denoted, hexponent, zpow_natCast]
    have hvalue := value_of_shiftLeft? hshift
    constructor
    · intro hsame
      refine ⟨?_, d, hsame⟩
      rw [hsame, hdenoted, mul_left_inj' (pow_ten_pos n).ne'] at hvalue
      exact ⟨base, hvalue.symm⟩
    · rintro ⟨hrep, -⟩
      rw [hvalue, hdenoted, value_of_readPlain? hbase hrep]

/-- A text is read as the number that it denotes if it can be read without rounding, and else as
another one. -/
theorem value_of_ofString? {text : String} (h : ofString? text = some d) :
    d.value = denoted text.toList ↔ Exact text.toList := by
  rcases (Option.orElse_eq_some _ _ _).mp h with hplain | ⟨-, hscientific⟩
  · have hmarks : ∀ c ∈ text.toList, (!isMark c) = true := by
      intro c hc
      rw [isMark_of_readPlain? hplain c hc]
      rfl
    have hwhole : significand text.toList = text.toList := List.takeWhile_eq_self_iff.mpr hmarks
    have hdenoted : denoted text.toList = positional text.toList := by
      rw [denoted, hwhole, List.dropWhile_eq_nil_iff.mpr hmarks]
      simp [exponent, digitsValue]
    rw [Exact, hwhole, hdenoted, and_self]
    exact ⟨fun hvalue => ⟨d, hvalue⟩, value_of_readPlain? hplain⟩
  · exact value_of_readScientific? hscientific

theorem denoted_of_digits {e : ℤ} (hhead : (significand cs).head? ≠ some '-')
    (hdigits : digitsValue (significand cs) = mantissa) (hplaces : places (significand cs) = scale)
    (hexponent : exponent ((cs.dropWhile (!isMark ·)).drop 1) = e) :
    positional (significand cs) = mantissa / 10 ^ scale ∧
      denoted cs = mantissa / 10 ^ scale * 10 ^ e := by
  have hpositional : positional (significand cs) = mantissa / 10 ^ scale := by
    rw [positional, if_neg hhead, hdigits, hplaces, one_mul]
  exact ⟨hpositional, by rw [denoted, hpositional, hexponent]⟩

end Ledger.Decimal
