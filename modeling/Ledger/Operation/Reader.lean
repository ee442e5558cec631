import Ledger.Csv
import Ledger.Operation.Draft
import Ledger.Text.Utf8

namespace Ledger

/-- The blanks that are trimmed before a field is known to be text. -/
def isBlankByte (b : UInt8) : Bool :=
  b = 0x20 || b = 0x09 || b = 0x0A || b = 0x0C || b = 0x0D

def trimBytes (bytes : List UInt8) : List UInt8 :=
  ((bytes.dropWhile isBlankByte).reverse.dropWhile isBlankByte).reverse

/-- The texts of a record's fields from the given one on, without the blanks around them. -/
def readTexts (field : Nat) : Csv.Record → Except RecordError (List String)
  | [] => .ok []
  | bytes :: rest =>
      match Utf8.decode (trimBytes bytes) with
      | .error index => .error (.invalidText field index)
      | .ok cs => (readTexts (field + 1) rest).map (String.ofList (trimBlanks cs) :: ·)

/-- The row of a record under the header's names, or by position where the header is not text. -/
def Row.ofRecord (header : Option (List String)) (record : Csv.Record) : Except RecordError Row :=
  match readTexts 0 record with
  | .error e => .error e
  | .ok texts =>
      let draft : Except RecordError Draft :=
        match header with
        | some names => Draft.putNamed {} [] 0 names texts
        | none => Draft.putInOrder {} 0 Column.all texts
      draft.bind Draft.row

/-- Why an item of an operation file is no operation. -/
inductive ItemError where
  | record (cause : RecordError)
  | row (cause : RowError)
deriving DecidableEq

/-- An item that is no operation, with its number in the file. -/
structure Malformed where
  number : Nat
  cause : ItemError
deriving DecidableEq

namespace Malformed

/-- The line that an item is reported on: the header counts as the first. -/
def line (m : Malformed) : Nat :=
  m.number + 1

def message (m : Malformed) : String :=
  match m.cause with
  | .record cause => s!"Line {m.line}: CSV parse error: {cause.message m.number}"
  | .row cause => s!"Line {m.line}: {cause.message}"

end Malformed

/-- An item of an operation file: what it asks for, or why it cannot be understood. -/
abbrev Item := Except Malformed Operation

/-- The item that the record with the given number is. -/
def Item.ofRecord (header : Option (List String)) (number : Nat) (record : Csv.Record) : Item :=
  match Row.ofRecord header record with
  | .error cause => .error ⟨number, .record cause⟩
  | .ok row => row.operation.mapError fun cause => ⟨number, .row cause⟩

/-- The items of an operation file, one for each record after the header. -/
def Item.readAll (bytes : List UInt8) : List Item :=
  match Csv.read bytes with
  | [] => []
  | header :: records =>
      let names := (readTexts 0 header).toOption
      (records.zipIdx 1).map fun (record, number) => Item.ofRecord names number record

end Ledger
