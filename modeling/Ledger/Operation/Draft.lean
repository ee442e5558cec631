import Ledger.Operation.Basic
import Ledger.Text.Integer

namespace Ledger

/-- Why a record of an operation file is no row. -/
inductive RecordError where
  | invalidText (field index : Nat)
  | tooShort
  | tooFew (count : Nat)
  | repeated (column : Column)
  | missing (column : Column)
  | invalidNumber (field : Nat) (cause : IntegerError)
deriving DecidableEq

/-- The message for the record with the given number. -/
def RecordError.message (number : Nat) : RecordError → String
  | invalidText field index =>
      s!"CSV parse error: record {number}: invalid utf-8: " ++
        s!"invalid UTF-8 in field {field} near byte index {index}"
  | tooShort => within "expected field, but got end of row"
  | tooFew count =>
      within (s!"invalid length {count}, expected struct CsvRecord " ++
        s!"with {Column.all.length} elements")
  | repeated column => within s!"duplicate field `{column.name}`"
  | missing column => within s!"missing field `{column.name}`"
  | invalidNumber field cause => within s!"field {field}: {cause.message}"
where
  within (reason : String) : String :=
    s!"CSV deserialize error: record {number}: {reason}"

/-- What has been read of a row. -/
structure Draft where
  verb : Option String := none
  user : Option UserId := none
  account : Option AccountId := none
  destination : Option AccountId := none
  amount : Option String := none
  product : Option String := none
  currency : Option String := none
  description : Option String := none
deriving DecidableEq

namespace Draft

def readNumber (field : Nat) (text : String) : Except RecordError Nat :=
  (Integer.ofText text).mapError (.invalidNumber field)

/-- Enters the field of a column. An empty field says nothing where the column is optional. -/
def put (draft : Draft) (column : Column) (field : Nat) (text : String) :
    Except RecordError Draft :=
  match column with
  | .verb => .ok { draft with verb := some text }
  | .user => (readNumber field text).map fun n => { draft with user := some n }
  | .account =>
      if text.isEmpty then .ok draft
      else (readNumber field text).map fun n => { draft with account := some n }
  | .destination =>
      if text.isEmpty then .ok draft
      else (readNumber field text).map fun n => { draft with destination := some n }
  | .amount => .ok (if text.isEmpty then draft else { draft with amount := some text })
  | .product => .ok (if text.isEmpty then draft else { draft with product := some text })
  | .currency => .ok (if text.isEmpty then draft else { draft with currency := some text })
  | .description => .ok (if text.isEmpty then draft else { draft with description := some text })

/-- The row, once the columns that every row needs have been read. -/
def row (draft : Draft) : Except RecordError Row :=
  match draft.verb, draft.user with
  | none, _ => .error (.missing .verb)
  | _, none => .error (.missing .user)
  | some verb, some user =>
      .ok
        { verb, user
          account := draft.account
          destination := draft.destination
          amount := draft.amount
          product := draft.product
          currency := draft.currency
          description := draft.description }

/-- Whether a column must have a field wherever it is named. -/
def isRequired (column : Column) : Bool :=
  column = .verb || column = .user

/-- Enters the fields from the given one on under the names of the header. Unknown columns are
passed over, fields without a name are not looked at, and `seen` are the columns that have been
read. -/
def putNamed (draft : Draft) (seen : List Column) (field : Nat) :
    List String → List String → Except RecordError Draft
  | [], _ => .ok draft
  | name :: names, texts =>
      match Column.ofName? name, texts with
      | none, [] => .error .tooShort
      | none, _ :: texts => draft.putNamed seen (field + 1) names texts
      | some column, texts =>
          if column ∈ seen then .error (.repeated column)
          else
            match texts with
            | [] =>
                if isRequired column then .error .tooShort
                else draft.putNamed (column :: seen) field names []
            | text :: texts =>
                match draft.put column field text with
                | .error e => .error e
                | .ok draft => draft.putNamed (column :: seen) (field + 1) names texts

/-- Enters the fields from the given one on under the columns in their written order; every column
needs a field. -/
def putInOrder (draft : Draft) (field : Nat) :
    List Column → List String → Except RecordError Draft
  | [], _ => .ok draft
  | _ :: _, [] => .error (.tooFew field)
  | column :: columns, text :: texts =>
      match draft.put column field text with
      | .error e => .error e
      | .ok draft => draft.putInOrder (field + 1) columns texts

end Draft

end Ledger
