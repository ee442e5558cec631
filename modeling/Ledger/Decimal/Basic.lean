namespace Ledger

/-- Where a quotient halfway between two integers goes. -/
inductive Tie where
  | up
  | even
deriving DecidableEq

/-- Whether a quotient `q` with remainder `r` on division by `d` is rounded away from zero. -/
def Tie.raises (tie : Tie) (q r d : Nat) : Bool :=
  match compare (2 * r) d with
  | .lt => false
  | .gt => true
  | .eq => tie = .up || q % 2 = 1

/-- The integer nearest to `n / d`. -/
def roundDiv (tie : Tie) (n d : Nat) : Nat :=
  if tie.raises (n / d) (n % d) d then n / d + 1 else n / d

@[simp] theorem roundDiv_one (tie : Tie) (n : Nat) : roundDiv tie n 1 = n := by
  simp [roundDiv, Tie.raises, Nat.mod_one, Nat.compare_eq_lt.2]

theorem roundDiv_le_succ (tie : Tie) (n d : Nat) : roundDiv tie n d ≤ n / d + 1 := by
  unfold roundDiv
  split <;> omega

theorem roundDiv_le_self (tie : Tie) {n d : Nat} (hn : 0 < n) (hd : 1 < d) :
    roundDiv tie n d ≤ n := by
  have hlt : n / d < n := Nat.div_lt_self hn hd
  have := roundDiv_le_succ tie n d
  omega

/-- A decimal number of at most 96 bits and 28 places, worth `± mantissa / 10 ^ scale`. -/
structure Decimal where
  negative : Bool
  mantissa : Nat
  scale : Nat
  mantissa_lt : mantissa < Nat.pow 2 96 := by decide
  scale_le : scale ≤ 28 := by decide
deriving DecidableEq

namespace Decimal

/-- The number with the given digits and places, if they fit; zero carries no sign. -/
def ofDigits? (negative : Bool) (mantissa scale : Nat) : Option Decimal :=
  if h : mantissa < Nat.pow 2 96 ∧ scale ≤ 28 then
    some ⟨negative && mantissa != 0, mantissa, scale, h.1, h.2⟩
  else none

/-- Zero with the given number of places. -/
def zero (scale : Nat) (h : scale ≤ 28 := by decide) : Decimal :=
  ⟨false, 0, scale, by decide, h⟩

instance : Zero Decimal := ⟨zero 0⟩

instance : Inhabited Decimal := ⟨0⟩

/-- An amount of so many cents. -/
def cents (count : Nat) (h : count < Nat.pow 2 96 := by decide) : Decimal where
  negative := false
  mantissa := count
  scale := 2
  mantissa_lt := h

def isZero (d : Decimal) : Bool :=
  d.mantissa == 0

/-- The digits with their sign: the value in units of `10 ^ -scale`. -/
def signed (d : Decimal) : Int :=
  if d.negative then -(d.mantissa : Int) else d.mantissa

/-- Numbers compare by value, whatever their places. -/
instance : LE Decimal where
  le a b := a.signed * Int.pow 10 b.scale ≤ b.signed * Int.pow 10 a.scale

instance : LT Decimal where
  lt a b := a.signed * Int.pow 10 b.scale < b.signed * Int.pow 10 a.scale

instance (a b : Decimal) : Decidable (a ≤ b) :=
  inferInstanceAs (Decidable (a.signed * Int.pow 10 b.scale ≤ b.signed * Int.pow 10 a.scale))

instance (a b : Decimal) : Decidable (a < b) :=
  inferInstanceAs (Decidable (a.signed * Int.pow 10 b.scale < b.signed * Int.pow 10 a.scale))

/-- Equality of value: `1.50` and `1.5` are the same amount. -/
def SameValue (a b : Decimal) : Prop :=
  a.signed * Int.pow 10 b.scale = b.signed * Int.pow 10 a.scale

instance (a b : Decimal) : Decidable (SameValue a b) :=
  inferInstanceAs (Decidable (a.signed * Int.pow 10 b.scale = b.signed * Int.pow 10 a.scale))

/-- Drops zeros from the end of `scale` places. -/
def stripZeros (mantissa : Nat) : (scale : Nat) → Nat × Nat
  | 0 => (mantissa, 0)
  | scale + 1 =>
      if mantissa % 10 = 0 then stripZeros (mantissa / 10) scale else (mantissa, scale + 1)

theorem stripZeros_fst_le (mantissa scale : Nat) : (stripZeros mantissa scale).1 ≤ mantissa := by
  induction scale generalizing mantissa with
  | zero => simp [stripZeros]
  | succ scale ih =>
      unfold stripZeros
      split
      · exact Nat.le_trans (ih _) (Nat.div_le_self _ _)
      · exact Nat.le_refl _

theorem stripZeros_snd_le (mantissa scale : Nat) : (stripZeros mantissa scale).2 ≤ scale := by
  induction scale generalizing mantissa with
  | zero => simp [stripZeros]
  | succ scale ih =>
      unfold stripZeros
      split
      · exact Nat.le_trans (ih _) (Nat.le_succ _)
      · exact Nat.le_refl _

/-- The same value with the fewest places; zero becomes plain `0`. -/
def normalize (d : Decimal) : Decimal :=
  if d.mantissa = 0 then 0
  else
    { negative := d.negative
      mantissa := (stripZeros d.mantissa d.scale).1
      scale := (stripZeros d.mantissa d.scale).2
      mantissa_lt := Nat.lt_of_le_of_lt (stripZeros_fst_le _ _) d.mantissa_lt
      scale_le := Nat.le_trans (stripZeros_snd_le _ _) d.scale_le }

/-- Adds up to `count` zero places, stopping early where the digits would no longer fit. -/
def addPlaces : (count : Nat) → Decimal → Decimal
  | 0, d => d
  | count + 1, d =>
      if h : 10 * d.mantissa < Nat.pow 2 96 ∧ d.scale < 28 then
        addPlaces count ⟨d.negative, 10 * d.mantissa, d.scale + 1, h.1, h.2⟩
      else d

/-- Rounds `count` places away, a half going up; the sign stays even on zero. -/
def dropPlaces (count : Nat) (d : Decimal) : Decimal :=
  if h : 0 < d.mantissa ∧ 0 < count then
    { negative := d.negative
      mantissa := roundDiv .up d.mantissa (Nat.pow 10 count)
      scale := d.scale - count
      mantissa_lt :=
        Nat.lt_of_le_of_lt (roundDiv_le_self .up h.1 (Nat.one_lt_pow (by omega) (by decide)))
          d.mantissa_lt
      scale_le := Nat.le_trans (Nat.sub_le _ _) d.scale_le }
  else
    { d with scale := d.scale - count, scale_le := Nat.le_trans (Nat.sub_le _ _) d.scale_le }

/-- The number at `scale` places: rounded half up going down, and going up as far as it fits. -/
def rescale (d : Decimal) (scale : Nat) : Decimal :=
  if d.mantissa = 0 then { d with scale := min scale 28, scale_le := Nat.min_le_right _ _ }
  else if scale < d.scale then d.dropPlaces (d.scale - scale)
  else addPlaces (scale - d.scale) d

/-- The number worth `mantissa / 10 ^ scale`, with the fewest last places rounded half to even that
make it fit; `none` if not even the whole part does. -/
def fit? (negative : Bool) (mantissa scale : Nat) : Option Decimal :=
  (List.range (scale + 1)).findSome? fun dropped =>
    ofDigits? negative (roundDiv .even mantissa (Nat.pow 10 dropped)) (scale - dropped)

def neg (d : Decimal) : Decimal :=
  { d with negative := !d.negative && d.mantissa != 0 }

/-- The sum at the larger of the two scales, rounded only if it does not fit there. A zero summand
gives the other one as it stands, places included. -/
def add? (a b : Decimal) : Option Decimal :=
  if a.mantissa = 0 then some b
  else if b.mantissa = 0 then some a
  else
    let scale := max a.scale b.scale
    let sum := a.signed * Int.pow 10 (scale - a.scale) + b.signed * Int.pow 10 (scale - b.scale)
    fit? (sum < 0) sum.natAbs scale

def sub? (a b : Decimal) : Option Decimal :=
  a.add? b.neg

/-- The product; the places of the factors add up. -/
def mul? (a b : Decimal) : Option Decimal :=
  if a.mantissa = 0 ∨ b.mantissa = 0 then some 0
  else fit? (a.negative != b.negative) (a.mantissa * b.mantissa) (a.scale + b.scale)

/-- A left-to-right sum that starts from zero. -/
def sum? (ds : List Decimal) : Option Decimal :=
  ds.foldlM add? 0

/-- The whole part, cut off toward zero. -/
def truncate (d : Decimal) : Int :=
  d.signed.tdiv (Int.pow 10 d.scale)

end Decimal

end Ledger
