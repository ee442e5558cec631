import Ledger.Json.Basic
import Ledger.Text.Numeral

namespace Ledger.Json

def isSpace (c : Char) : Bool :=
  c = ' ' || c = '\n' || c = '\t' || c = '\r'

def dropSpaces (cs : List Char) : List Char :=
  cs.dropWhile isSpace

/-- The code unit that four hexadecimal digits stand for. -/
def codeUnit? (a b c d : Char) : Option Nat :=
  (Numeral.hexDigit? a).bind fun a =>
    (Numeral.hexDigit? b).bind fun b =>
      (Numeral.hexDigit? c).bind fun c =>
        (Numeral.hexDigit? d).map fun d => ((a * 16 + b) * 16 + c) * 16 + d

def isHighSurrogate (n : Nat) : Bool :=
  0xD800 ≤ n && n < 0xDC00

def isLowSurrogate (n : Nat) : Bool :=
  0xDC00 ≤ n && n < 0xE000

/-- The character of a pair of surrogates. -/
def pairedChar (high low : Nat) : Char :=
  Char.ofNat (0x10000 + (high - 0xD800) * 0x400 + (low - 0xDC00))

/-- The character that a one-letter escape stands for. -/
def escaped? (c : Char) : Option Char :=
  match c with
  | '"' => some '"'
  | '\\' => some '\\'
  | '/' => some '/'
  | 'b' => some '\x08'
  | 'f' => some '\x0c'
  | 'n' => some '\n'
  | 'r' => some '\r'
  | 't' => some '\t'
  | _ => none

/-- What is read of a string: its characters, or `none` once a surrogate has no partner. -/
abbrev StringBody := Option (List Char) × List Char

def StringBody.cons (c : Char) (body : StringBody) : StringBody :=
  (body.1.map (c :: ·), body.2)

def StringBody.spoil (body : StringBody) : StringBody :=
  (none, body.2)

/-- The rest of a string after its opening quote, and what follows the closing one. -/
def readString? : List Char → Option StringBody
  | [] => none
  | '"' :: rest => some (some [], rest)
  | '\\' :: 'u' :: a :: b :: c :: d :: rest =>
      match codeUnit? a b c d with
      | none => none
      | some n =>
          if isHighSurrogate n then
            match rest with
            | '\\' :: 'u' :: a' :: b' :: c' :: d' :: rest' =>
                match codeUnit? a' b' c' d' with
                | none => none
                | some m =>
                    if isLowSurrogate m then
                      (readString? rest').map (StringBody.cons (pairedChar n m))
                    else (readString? rest').map StringBody.spoil
            | rest => (readString? rest).map StringBody.spoil
          else if isLowSurrogate n then (readString? rest).map StringBody.spoil
          else (readString? rest).map (StringBody.cons (Char.ofNat n))
  | '\\' :: c :: rest =>
      match escaped? c with
      | none => none
      | some c => (readString? rest).map (StringBody.cons c)
  | c :: rest => if c.toNat < 0x20 then none else (readString? rest).map (StringBody.cons c)

/-- The digits at the start of a text. -/
def spanDigits (cs : List Char) : List Char × List Char :=
  cs.span fun c => (Numeral.digit? c).isSome

/-- The whole part of a number: a zero, or digits that do not start with one. -/
def readWhole? : List Char → Option (List Char × List Char)
  | '0' :: rest => some (['0'], rest)
  | cs =>
      match spanDigits cs with
      | ([], _) => none
      | read => some read

/-- The places of a number, point included, if there is a point. -/
def readPlaces? : List Char → Option (List Char × List Char)
  | '.' :: rest =>
      match spanDigits rest with
      | ([], _) => none
      | (digits, rest) => some ('.' :: digits, rest)
  | cs => some ([], cs)

/-- The exponent of a number, mark and sign included, if there is one. -/
def readExponent? (cs : List Char) : Option (List Char × List Char) :=
  let digitsAfter := fun (mark rest : List Char) =>
    match spanDigits rest with
    | ([], _) => none
    | (digits, rest) => some (mark ++ digits, rest)
  match cs with
  | e :: rest =>
      if e = 'e' ∨ e = 'E' then
        match rest with
        | '+' :: rest => digitsAfter [e, '+'] rest
        | '-' :: rest => digitsAfter [e, '-'] rest
        | rest => digitsAfter [e] rest
      else some ([], cs)
  | [] => some ([], [])

def readUnsigned? (cs : List Char) : Option (List Char × List Char) :=
  (readWhole? cs).bind fun (whole, rest) =>
    (readPlaces? rest).bind fun (places, rest) =>
      (readExponent? rest).map fun (exponent, rest) => (whole ++ places ++ exponent, rest)

def readNumber? : List Char → Option (List Char × List Char)
  | '-' :: rest => (readUnsigned? rest).map fun (digits, rest) => ('-' :: digits, rest)
  | cs => readUnsigned? cs

/-- What follows a word that a text starts with. -/
def afterWord? : (word : List Char) → List Char → Option (List Char)
  | [], cs => some cs
  | _ :: _, [] => none
  | w :: word, c :: cs => if w = c then afterWord? word cs else none

mutual

/-- Reads a value nested at most `depth` deep, after any spaces. -/
def readValue? : (depth : Nat) → List Char → Option (Json × List Char)
  | 0, _ => none
  | depth + 1, cs =>
      match dropSpaces cs with
      | [] => none
      | '"' :: rest =>
          (readString? rest).map fun (text, rest) =>
            (text.elim unpaired fun cs => string (String.ofList cs), rest)
      | '[' :: rest =>
          match dropSpaces rest with
          | ']' :: rest => some (array [], rest)
          | rest => (readItems? depth rest).map fun (items, rest) => (array items, rest)
      | '\x7b' :: rest =>
          match dropSpaces rest with
          | '\x7d' :: rest => some (object [], rest)
          | rest => (readMembers? depth rest).map fun (members, rest) => (object members, rest)
      | 'n' :: rest => (afterWord? "ull".toList rest).map fun rest => (null, rest)
      | 't' :: rest => (afterWord? "rue".toList rest).map fun rest => (bool true, rest)
      | 'f' :: rest => (afterWord? "alse".toList rest).map fun rest => (bool false, rest)
      | cs => (readNumber? cs).map fun (literal, rest) => (number literal, rest)

/-- The items of an array up to its closing bracket. -/
def readItems? : (depth : Nat) → List Char → Option (List Json × List Char)
  | 0, _ => none
  | depth + 1, cs =>
      match readValue? depth cs with
      | none => none
      | some (item, rest) =>
          match dropSpaces rest with
          | ',' :: rest => (readItems? depth rest).map fun (items, rest) => (item :: items, rest)
          | ']' :: rest => some ([item], rest)
          | _ => none

/-- The members of an object up to its closing brace. -/
def readMembers? : (depth : Nat) → List Char → Option (List (Option String × Json) × List Char)
  | 0, _ => none
  | depth + 1, cs =>
      match dropSpaces cs with
      | '"' :: rest =>
          match readString? rest with
          | none => none
          | some (name, rest) =>
              match dropSpaces rest with
              | ':' :: rest =>
                  match readValue? depth rest with
                  | none => none
                  | some (value, rest) =>
                      match dropSpaces rest with
                      | ',' :: rest =>
                          (readMembers? depth rest).map fun (members, rest) =>
                            ((name.map String.ofList, value) :: members, rest)
                      | '\x7d' :: rest => some ([(name.map String.ofList, value)], rest)
                      | _ => none
              | _ => none
      | _ => none

end

/-- Reads a text that holds one value and nothing else but spaces. -/
def ofText? (text : String) : Option Json :=
  match readValue? (2 * text.length + 1) text.toList with
  | some (value, rest) => if dropSpaces rest = [] then some value else none
  | none => none

end Ledger.Json
