import Ledger.Decimal.Text

namespace Ledger

/-- A length of time, in nanoseconds; it holds fewer than `2 ^ 64` seconds. -/
structure Duration where
  nanos : Nat
  nanos_lt : nanos < Nat.pow 2 64 * Nat.pow 10 9 := by decide
deriving DecidableEq

namespace Duration

instance : LE Duration where
  le a b := a.nanos ≤ b.nanos

instance : LT Duration where
  lt a b := a.nanos < b.nanos

instance (a b : Duration) : Decidable (a ≤ b) :=
  inferInstanceAs (Decidable (a.nanos ≤ b.nanos))

instance (a b : Duration) : Decidable (a < b) :=
  inferInstanceAs (Decidable (a.nanos < b.nanos))

instance : Min Duration where
  min a b := if a ≤ b then a else b

def zero : Duration :=
  ⟨0, by decide⟩

def ofNanos? (nanos : Nat) : Option Duration :=
  if h : nanos < Nat.pow 2 64 * Nat.pow 10 9 then some ⟨nanos, h⟩ else none

def ofMillis (millis : UInt64) : Duration where
  nanos := millis.toNat * Nat.pow 10 6
  nanos_lt := by
    have := millis.toNat_lt
    simp only [Nat.pow_eq]
    omega

/-- Whole milliseconds; the rest of a nanosecond count is cut off. -/
def millis (d : Duration) : Nat :=
  d.nanos / Nat.pow 10 6

/-- The duration `n` times over, or `none` if that is too long to be held. -/
def times? (d : Duration) (n : Nat) : Option Duration :=
  ofNanos? (d.nanos * n)

@[simp] theorem nanos_min (a b : Duration) : (min a b).nanos = min a.nanos b.nanos := by
  show (if a.nanos ≤ b.nanos then a else b).nanos = min a.nanos b.nanos
  split
  · rename_i h
    exact (Nat.min_eq_left h).symm
  · rename_i h
    exact (Nat.min_eq_right (Nat.le_of_not_le h)).symm

theorem times?_eq_some_iff {d product : Duration} {n : Nat} :
    d.times? n = some product ↔ product.nanos = d.nanos * n := by
  simp only [times?, ofNanos?]
  constructor
  · intro h
    obtain ⟨hfits, ⟨⟩⟩ := Option.dite_none_right_eq_some.mp h
    rfl
  · intro h
    rw [dif_pos (h ▸ product.nanos_lt), Option.some_inj]
    cases product
    cases h
    rfl

theorem times?_eq_none_iff {d : Duration} {n : Nat} :
    d.times? n = none ↔ Nat.pow 2 64 * Nat.pow 10 9 ≤ d.nanos * n := by
  simp only [times?, ofNanos?, dite_eq_right_iff, reduceCtorEq, imp_false, Nat.not_lt]

/-- A count of nanoseconds in units of `10 ^ places`, with no more places than it needs. -/
def inUnit (nanos places : Nat) (unit : String) : String :=
  let stripped := Decimal.stripZeros nanos places
  String.ofList (Decimal.writeDigits stripped.1 stripped.2) ++ unit

/-- The exact length in the largest unit of which it holds at least one. -/
def toText (d : Duration) : String :=
  if Nat.pow 10 9 ≤ d.nanos then inUnit d.nanos 9 "s"
  else if Nat.pow 10 6 ≤ d.nanos then inUnit d.nanos 6 "ms"
  else if Nat.pow 10 3 ≤ d.nanos then inUnit d.nanos 3 "µs"
  else inUnit d.nanos 0 "ns"

end Duration

end Ledger
