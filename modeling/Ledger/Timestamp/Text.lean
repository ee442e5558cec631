import Ledger.Text.Blank
import Ledger.Text.Numeral
import Ledger.Timestamp.Basic

namespace Ledger.Timestamp

/-- A number in at least `width` digits. -/
def padded (width n : Nat) : List Char :=
  List.replicate (width - (Numeral.write n).length) '0' ++ Numeral.write n

/-- Four digits, or a sign and at least four digits outside the years 0 to 9999. -/
def writeYear (year : Int) : List Char :=
  if 0 ≤ year ∧ year ≤ 9999 then padded 4 year.toNat
  else (if year < 0 then '-' else '+') :: padded 4 year.natAbs

/-- Nothing, or 3, 6 or 9 places of a second: the fewest that are exact. -/
def writeFraction (nanos : Nat) : List Char :=
  if nanos = 0 then []
  else if nanos % Nat.pow 10 6 = 0 then '.' :: padded 3 (nanos / Nat.pow 10 6)
  else if nanos % Nat.pow 10 3 = 0 then '.' :: padded 6 (nanos / Nat.pow 10 3)
  else '.' :: padded 9 nanos

def write (t : Timestamp) : List Char :=
  writeYear t.year ++ '-' :: padded 2 t.month ++ '-' :: padded 2 t.day ++
    'T' :: padded 2 t.hour ++ ':' :: padded 2 t.minute ++ ':' :: padded 2 t.second ++
    writeFraction t.nanos ++ ['Z']

/-- Date and time in UTC, in the form of RFC 3339. -/
def toText (t : Timestamp) : String :=
  String.ofList t.write

/-- Reads digits, at most `most` of them, on after the ones worth `value`. -/
def readUpTo (value : Nat) : (most : Nat) → List Char → Nat × List Char
  | 0, cs => (value, cs)
  | _ + 1, [] => (value, [])
  | most + 1, c :: rest =>
      match Numeral.digit? c with
      | some d => readUpTo (10 * value + d) most rest
      | none => (value, c :: rest)

/-- A number of one to `most` digits at the start of a text. -/
def readNumber? (most : Nat) (cs : List Char) : Option (Nat × List Char) :=
  match cs with
  | c :: _ => if (Numeral.digit? c).isSome then some (readUpTo 0 most cs) else none
  | [] => none

/-- As `readNumber?`, after any blanks. -/
def readField? (most : Nat) (cs : List Char) : Option (Nat × List Char) :=
  readNumber? most (dropBlanks cs)

/-- A given mark, after any blanks. -/
def readMark? (mark : Char) (cs : List Char) : Option (List Char) :=
  match dropBlanks cs with
  | c :: rest => if c = mark then some rest else none
  | [] => none

/-- A year has up to four digits, or a sign and any number of them. -/
def readYear? (cs : List Char) : Option (Int × List Char) :=
  match dropBlanks cs with
  | '-' :: rest => (readNumber? rest.length rest).map fun (n, rest) => (-(n : Int), rest)
  | '+' :: rest => (readNumber? rest.length rest).map fun (n, rest) => ((n : Int), rest)
  | cs => (readNumber? 4 cs).map fun (n, rest) => ((n : Int), rest)

/-- Places of a second: nine of them count, further ones are passed over. -/
def readFraction? : List Char → Option (Nat × List Char)
  | '.' :: rest =>
      (readNumber? 9 rest).map fun (n, unread) =>
        (n * Nat.pow 10 (9 - (rest.length - unread.length)),
          unread.dropWhile fun c => (Numeral.digit? c).isSome)
  | cs => some (0, cs)

/-- Exactly two digits, the first below `limit`. -/
def readPair? (limit : Nat) : List Char → Option (Nat × List Char)
  | c :: d :: rest =>
      (Numeral.digit? c).bind fun tens =>
        (Numeral.digit? d).bind fun ones =>
          if tens < limit then some (10 * tens + ones, rest) else none
  | _ => none

/-- Hours and minutes east or west of UTC, with colons or blanks between them. -/
def readHoursMinutes? (cs : List Char) : Option (Nat × List Char) :=
  (readPair? 10 cs).bind fun (hours, rest) =>
    (readPair? 6 (rest.dropWhile fun c => c = ':' || isBlank c)).bind fun (minutes, rest) =>
      if hours < 24 then some (60 * hours + minutes, rest) else none

/-- The offset from UTC in minutes: `Z`, `UTC`, or a signed number of hours and minutes. -/
def readOffset? (cs : List Char) : Option (Int × List Char) :=
  match dropBlanks cs with
  | 'Z' :: rest | 'z' :: rest => some (0, rest)
  | '+' :: rest => (readHoursMinutes? rest).map fun (n, rest) => ((n : Int), rest)
  | '-' :: rest | '−' :: rest => (readHoursMinutes? rest).map fun (n, rest) => (-(n : Int), rest)
  | u :: t :: c :: rest =>
      if [u.toUpper, t.toUpper, c.toUpper] = ['U', 'T', 'C'] then some (0, rest) else none
  | _ => none

/-- The mark between date and time. -/
def readSeparator? : List Char → Option (List Char)
  | 'T' :: rest | 't' :: rest | ' ' :: rest => some rest
  | _ => none

def read? (cs : List Char) : Option Timestamp := do
  let (year, cs) ← readYear? cs
  let cs ← readMark? '-' cs
  let (month, cs) ← readField? 2 cs
  let cs ← readMark? '-' cs
  let (day, cs) ← readField? 2 cs
  let cs ← readSeparator? cs
  let (hour, cs) ← readField? 2 cs
  let cs ← readMark? ':' cs
  let (minute, cs) ← readField? 2 cs
  let cs ← readMark? ':' cs
  let (second, cs) ← readField? 2 cs
  let (nanos, cs) ← readFraction? cs
  let (offset, cs) ← readOffset? cs
  let clock : Timestamp := ⟨year, month, day, hour, minute, second, nanos⟩
  if clock.Valid ∧ (clock.ofLocal offset).Valid ∧ dropBlanks cs = [] then
    some (clock.ofLocal offset)
  else none

/-- Reads a date and time with any offset from UTC; blanks may stand around its parts. -/
def ofString? (text : String) : Option Timestamp :=
  read? text.toList

end Ledger.Timestamp
