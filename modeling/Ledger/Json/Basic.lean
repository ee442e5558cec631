import Ledger.Text.Numeral

namespace Ledger

/-- A JSON value. A number is kept as it is written. A string with an escaped surrogate that has no
partner stands for no text; it is allowed only where nobody looks at it. -/
inductive Json where
  | null
  | bool (value : Bool)
  | number (literal : List Char)
  | string (text : String)
  | unpaired
  | array (items : List Json)
  | object (members : List (Option String × Json))

namespace Json

/-- A member of an object, by its name. -/
abbrev Member := Option String × Json

def ofNat (n : Nat) : Json :=
  number (Numeral.write n)

def ofOptionNat : Option Nat → Json
  | some n => ofNat n
  | none => null

def string? : Json → Option String
  | string text => some text
  | _ => none

/-- A whole number of 64 bits, written without sign, point or exponent. -/
def natural? : Json → Option Nat
  | number literal => (Numeral.read? literal).filter (· < Nat.pow 2 64)
  | _ => none

/-- A natural number, or `null` for none. -/
def optionNatural? : Json → Option (Option Nat)
  | null => some none
  | value => value.natural?.map some

/-- The values of all members of one name, in order. -/
def valuesOf (name : String) (members : List Member) : List Json :=
  (members.filter (·.1 = some name)).map (·.2)

/-- The value of a member that must be there exactly once. -/
def required? (name : String) (members : List Member) : Option Json :=
  match valuesOf name members with
  | [value] => some value
  | _ => none

/-- The value of a member that may be left out, which is the same as `null`. -/
def optional? (name : String) (members : List Member) : Option Json :=
  match valuesOf name members with
  | [] => some null
  | [value] => some value
  | _ => none

/-- The members of a record that is written as an object, or as an array of all its values in the
order of `names`. -/
def fields? (names : List String) : Json → Option (List Member)
  | object members => if members.all (·.1.isSome) then some members else none
  | array items =>
      if items.length = names.length then some ((names.map some).zip items) else none
  | _ => none

/-- A name out of a list of them: a string, or an object whose only member has the name and is
`null`. -/
def choice? : Json → Option String
  | string text => some text
  | object [(name, null)] => name
  | _ => none

end Json

end Ledger
