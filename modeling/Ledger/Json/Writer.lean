import Ledger.Json.Basic

namespace Ledger.Json

/-- A character inside a string: quotes, backslashes and control characters are escaped. -/
def escape (c : Char) : List Char :=
  if c = '"' then ['\\', '"']
  else if c = '\\' then ['\\', '\\']
  else if c = '\x08' then ['\\', 'b']
  else if c = '\x0c' then ['\\', 'f']
  else if c = '\n' then ['\\', 'n']
  else if c = '\r' then ['\\', 'r']
  else if c = '\t' then ['\\', 't']
  else if c.toNat < 0x20 then
    ['\\', 'u', '0', '0', Nat.digitChar (c.toNat / 16), Nat.digitChar (c.toNat % 16)]
  else [c]

def writeString (text : String) : List Char :=
  '"' :: text.toList.flatMap escape ++ ['"']

/-- A string that holds an escaped surrogate without a partner. -/
def writeUnpaired : List Char :=
  ['"', '\\', 'u', 'd', '8', '0', '0', '"']

def writeName : Option String → List Char
  | some name => writeString name
  | none => writeUnpaired

mutual

/-- The value on one line, with no blanks. -/
def write : Json → List Char
  | null => "null".toList
  | bool true => "true".toList
  | bool false => "false".toList
  | number literal => literal
  | string text => writeString text
  | unpaired => writeUnpaired
  | array items => '[' :: writeItems items ++ [']']
  | object members => '\x7b' :: writeMembers members ++ ['\x7d']

def writeItems : List Json → List Char
  | [] => []
  | [item] => write item
  | item :: items => write item ++ ',' :: writeItems items

def writeMembers : List (Option String × Json) → List Char
  | [] => []
  | [(name, value)] => writeName name ++ ':' :: write value
  | (name, value) :: members =>
      writeName name ++ ':' :: write value ++ ',' :: writeMembers members

end

def toText (value : Json) : String :=
  String.ofList value.write

end Ledger.Json
