import Ledger.Text.Numeral

namespace Ledger.Json

/-- What a number says: `± significand * 10 ^ exponent`. A number is `whole` if it is written
without a point or exponent and its digits fit 64 bits. -/
structure NumberParts where
  negative : Bool
  significand : Nat
  exponent : Int
  whole : Bool
deriving DecidableEq

/-- The significand with one more digit, if that fits 64 bits. -/
def pushDigit? (significand : Nat) (c : Char) : Option Nat :=
  (Numeral.digit? c).bind fun d =>
    if 10 * significand + d < Nat.pow 2 64 then some (10 * significand + d) else none

/-- Reads digits on as far as they fit; it returns how many of them do, too. -/
def takeDigits (significand : Nat) : List Char → Nat × Nat
  | [] => (significand, 0)
  | c :: rest =>
      match pushDigit? significand c with
      | none => (significand, 0)
      | some significand =>
          let (total, count) := takeDigits significand rest
          (total, count + 1)

/-- The exponent after its mark. -/
def exponentOf : List Char → Int
  | _ :: '-' :: digits => -((Numeral.read? digits).getD 0 : Int)
  | _ :: '+' :: digits => (Numeral.read? digits).getD 0
  | _ :: digits => (Numeral.read? digits).getD 0
  | [] => 0

/-- Takes a number apart. Digits that no longer fit are zeros before the point and nothing after
it. -/
def partsOf (literal : List Char) : NumberParts :=
  let negative := literal.head? = some '-'
  let digits := if negative then literal.drop 1 else literal
  let (mantissa, exponent) := digits.span fun c => c ≠ 'e' && c ≠ 'E'
  let (before, after) := mantissa.span (· ≠ '.')
  let (significand, taken) := takeDigits 0 before
  let (total, places) := takeDigits significand (after.drop 1)
  { negative
    significand := total
    exponent := (before.length - taken : Int) - places + exponentOf exponent
    whole := after.isEmpty && exponent.isEmpty && taken == before.length }

end Ledger.Json
