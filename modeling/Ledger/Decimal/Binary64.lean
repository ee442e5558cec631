import Ledger.Decimal.Text

namespace Ledger

/-- A floating-point number of 53 binary digits, worth `mantissa * 2 ^ exponent`. -/
structure Binary64 where
  mantissa : Nat
  exponent : Int
deriving DecidableEq

namespace Binary64

/-- The value as a quotient: its numerator. -/
def num (b : Binary64) : Nat :=
  b.mantissa * Nat.pow 2 b.exponent.toNat

/-- The value as a quotient: its denominator. -/
def den (b : Binary64) : Nat :=
  Nat.pow 2 (-b.exponent).toNat

/-- The exponent of the floating-point numbers about a positive quotient; below the smallest one the
numbers lie evenly apart. -/
def exponentOf (num den : Nat) : Int :=
  let e : Int := num.log2 - den.log2
  let reached := den * Nat.pow 2 e.toNat ≤ num * Nat.pow 2 (-e).toNat
  max (-1074) (if reached then e - 52 else e - 53)

/-- The floating-point number nearest to a quotient, of two the one with the even mantissa; `none`
beyond the largest one. -/
def ofQuotient? (num den : Nat) : Option Binary64 :=
  if num = 0 then some ⟨0, -1074⟩
  else
    let e := exponentOf num den
    let m := roundDiv .even (num * Nat.pow 2 (-e).toNat) (den * Nat.pow 2 e.toNat)
    let rounded : Binary64 := if m = Nat.pow 2 53 then ⟨Nat.pow 2 52, e + 1⟩ else ⟨m, e⟩
    if rounded.exponent ≤ 971 then some rounded else none

/-- The power of ten, which is rounded beyond the twenty-second. -/
def tenPow? (n : Nat) : Option Binary64 :=
  ofQuotient? (Nat.pow 10 n) 1

def times? (a b : Binary64) : Option Binary64 :=
  ofQuotient? (a.num * b.num) (a.den * b.den)

def over? (a b : Binary64) : Option Binary64 :=
  ofQuotient? (a.num * b.den) (a.den * b.num)

/-- Divides by a power of ten, at most 308 places at a time. -/
def shiftRight? (b : Binary64) (places : Nat) : Option Binary64 :=
  if b.mantissa = 0 then some b
  else if places ≤ 308 then (tenPow? places).bind b.over?
  else ((tenPow? 308).bind b.over?).bind fun b => b.shiftRight? (places - 308)
termination_by places

/-- The number written as `significand * 10 ^ exponent`, the significand rounded before it is
scaled. -/
def ofDecimal? (significand : Nat) (exponent : Int) : Option Binary64 :=
  (ofQuotient? significand 1).bind fun b =>
    if exponent < 0 then b.shiftRight? (-exponent).toNat
    else if b.mantissa = 0 then some b
    else if exponent ≤ 308 then (tenPow? exponent.toNat).bind b.times?
    else none

/-- Whether a quotient is read as this floating-point number. An end of the range that rounds to it
belongs to it if the mantissa is even. -/
def covers (b : Binary64) (num den : Nat) : Bool :=
  let scaled := 4 * num * b.den
  let unit := den * Nat.pow 2 b.exponent.toNat
  let below := if b.mantissa = Nat.pow 2 52 ∧ -1074 < b.exponent then 1 else 2
  let low := 4 * b.mantissa - below
  let high := 4 * b.mantissa + 2
  if b.mantissa % 2 = 0 then low * unit ≤ scaled && scaled ≤ high * unit
  else low * unit < scaled && scaled < high * unit

/-- The multiple of `10 ^ place` that is read as this number, the nearer one if there are two. -/
def digitsAt? (b : Binary64) (place : Int) : Option Nat :=
  let n := b.num * Nat.pow 10 (-place).toNat
  let d := b.den * Nat.pow 10 place.toNat
  let fits := fun (count : Nat) =>
    b.covers (count * Nat.pow 10 place.toNat) (Nat.pow 10 (-place).toNat)
  let near := roundDiv .even n d
  if fits near then some near
  else if fits (n / d) then some (n / d)
  else if fits (n / d + 1) then some (n / d + 1)
  else none

/-- The fewest digits that are read as this number, with the place of the last one. -/
def digits (b : Binary64) : Nat × Int :=
  if b.mantissa = 0 then (0, 0)
  else
    ((List.range 634).findSome? fun (i : Nat) =>
      let place : Int := 309 - i
      (b.digitsAt? place).map fun count => (count, place)).getD (0, 0)

/-- The fewest digits, in positional notation. -/
def text (b : Binary64) : List Char :=
  let (count, place) := b.digits
  Decimal.writeDigits (count * Nat.pow 10 place.toNat) (-place).toNat

end Binary64

end Ledger
