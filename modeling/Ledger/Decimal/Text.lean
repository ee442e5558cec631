import Ledger.Decimal.Basic
import Ledger.Text.Numeral

namespace Ledger.Decimal

/-- Rounds the digits read so far by the digit that no longer fits. Where the round-up itself
overflows, one more place is given up, of which there must be one. -/
def roundBy (negative : Bool) (mantissa scale digit : Nat) : Option Decimal :=
  if digit < 5 then ofDigits? negative mantissa scale
  else if mantissa + 1 < Nat.pow 2 96 then ofDigits? negative (mantissa + 1) scale
  else if scale = 0 then none
  else ofDigits? negative ((mantissa + 5) / 10) (scale - 1)

/-- Whether the unread rest of a number holds digits and separators only. -/
def isTail (cs : List Char) : Bool :=
  cs.all fun c => c = '_' || (Numeral.digit? c).isSome

/-- Reads digits on after `mantissa`, of which `scale` places stand after the point. An underscore
may follow any digit. The places end where 28 are read or the digits no longer fit: the next
character rounds, and the rest carries no weight. -/
def readDigits (negative point started : Bool) (mantissa scale : Nat) :
    List Char → Option Decimal
  | [] => if started then ofDigits? negative mantissa scale else none
  | c :: rest =>
      if c = '.' then
        if point then none else readDigits negative true started mantissa scale rest
      else if c = '_' then
        if !started then none
        else if point && scale = 28 then
          if isTail rest then ofDigits? negative mantissa scale else none
        else readDigits negative point started mantissa scale rest
      else
        (Numeral.digit? c).bind fun digit =>
          if point && (scale = 28 || Nat.pow 2 96 ≤ 10 * mantissa + digit) then
            if isTail rest then roundBy negative mantissa scale digit else none
          else if Nat.pow 2 96 ≤ 10 * mantissa + digit then none
          else
            readDigits negative point true (10 * mantissa + digit)
              (if point then scale + 1 else scale) rest

/-- Positional notation with an optional sign. -/
def readPlain? : List Char → Option Decimal
  | '-' :: rest => readDigits true false false 0 0 rest
  | '+' :: rest => readDigits false false false 0 0 rest
  | cs => readDigits false false false 0 0 cs

/-- Divides by `10 ^ n`; places beyond the 28th are rounded away first. -/
def shiftRight? (base : Decimal) (n : Nat) : Option Decimal :=
  let fitted := if base.scale + n ≤ 28 then base else base.rescale (28 - n)
  if h : n ≤ 28 ∧ fitted.scale + n ≤ 28 then
    some { fitted with scale := fitted.scale + n, scale_le := h.2 }
  else none

/-- Multiplies by `10 ^ n`, exactly. -/
def shiftLeft? (base : Decimal) (n : Nat) : Option Decimal :=
  if n ≤ base.scale then
    some { base with
      scale := base.scale - n, scale_le := Nat.le_trans (Nat.sub_le _ _) base.scale_le }
  else if 28 < n then none
  else ofDigits? base.negative (base.mantissa * Nat.pow 10 (n - base.scale)) 0

/-- A positional number shifted by the power of ten written after `e` or `E`. -/
def readScientific? (cs : List Char) : Option Decimal :=
  let isMark := fun c => c = 'e' || c = 'E'
  match cs.span (fun c => !isMark c) with
  | (_, []) => none
  | (base, _ :: exponent) =>
      (readPlain? base).bind fun number =>
        match exponent with
        | '-' :: digits => (Numeral.readSigned? digits).bind number.shiftRight?
        | digits => (Numeral.readSigned? digits).bind number.shiftLeft?

/-- Reads a number in positional or scientific notation, with nothing around it. -/
def ofString? (text : String) : Option Decimal :=
  readPlain? text.toList <|> readScientific? text.toList

/-- The digits with a point before the last `scale` of them, and a zero before the point where no
digit would stand there. -/
def writeDigits (mantissa scale : Nat) : List Char :=
  let digits := Numeral.write mantissa
  let padded := List.replicate (scale + 1 - digits.length) '0' ++ digits
  let whole := padded.take (padded.length - scale)
  if scale = 0 then whole else whole ++ '.' :: padded.drop (padded.length - scale)

/-- The number with all its places, never in scientific notation. -/
def toText (d : Decimal) : String :=
  String.ofList (if d.negative then '-' :: writeDigits d.mantissa d.scale
    else writeDigits d.mantissa d.scale)

end Ledger.Decimal
