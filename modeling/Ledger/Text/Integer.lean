import Ledger.Text.Numeral

namespace Ledger

/-- Why a text is not a number of 64 bits. -/
inductive IntegerError where
  | empty
  | invalidDigit
  | tooLarge
deriving DecidableEq

def IntegerError.message : IntegerError → String
  | empty => "cannot parse integer from empty string"
  | invalidDigit => "invalid digit found in string"
  | tooLarge => "number too large to fit in target type"

namespace Integer

/-- Reads digits on after the ones worth `value`; the first character that is no digit, or no longer
fits 64 bits, is the error. -/
def readFrom (base : Nat) (digit? : Char → Option Nat) (value : Nat) :
    List Char → Except IntegerError Nat
  | [] => .ok value
  | c :: rest =>
      match digit? c with
      | none => .error .invalidDigit
      | some d =>
          if Nat.pow 2 64 ≤ base * value + d then .error .tooLarge
          else readFrom base digit? (base * value + d) rest

/-- A non-empty run of digits, with one plus sign allowed in front. -/
def readDigits (base : Nat) (digit? : Char → Option Nat) : List Char → Except IntegerError Nat
  | [] => .error .empty
  | ['+'] => .error .invalidDigit
  | '+' :: rest => readFrom base digit? 0 rest
  | cs => readFrom base digit? 0 cs

/-- The number that decimal digits stand for. -/
def ofDecimal (cs : List Char) : Except IntegerError Nat :=
  readDigits 10 Numeral.digit? cs

/-- The number that decimal digits stand for, or hexadecimal ones after `0x`. -/
def ofText (s : String) : Except IntegerError Nat :=
  match s.toList with
  | '0' :: 'x' :: digits => readDigits 16 Numeral.hexDigit? digits
  | cs => ofDecimal cs

end Integer

end Ledger
