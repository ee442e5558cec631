namespace Ledger.Csv

/-- The bytes of a field, without its quotes. -/
abbrev Field := List UInt8

abbrev Record := List Field

def comma : UInt8 := 0x2C

def quote : UInt8 := 0x22

def newline : UInt8 := 0x0A

/-- Whether a byte ends a record where it stands outside quotes. -/
def isLineEnd (b : UInt8) : Bool :=
  b = newline || b = 0x0D

/-- Whether a byte has a meaning of its own outside quotes. -/
def isSpecial (b : UInt8) : Bool :=
  b = comma || b = quote || isLineEnd b

/-- The field with every quote in it written twice. -/
def doubleQuotes (field : Field) : List UInt8 :=
  field.flatMap fun b => if b = quote then [quote, quote] else [b]

/-- A field stands in quotes only where it has to. -/
def writeField (field : Field) : List UInt8 :=
  if field.any isSpecial then quote :: doubleQuotes field ++ [quote] else field

/-- The fields of a record on a line. A single empty field is quoted, for a blank line is no
record. -/
def writeRecord : Record → List UInt8
  | [[]] => [quote, quote, newline]
  | record => [comma].intercalate (record.map writeField) ++ [newline]

def write (records : List Record) : List UInt8 :=
  records.flatMap writeRecord

/-- Where a reader stands. `afterQuote` is the place after a quote inside a quoted field: the field
goes on if another quote follows. -/
inductive Place where
  | recordStart
  | fieldStart
  | plain
  | quoted
  | afterQuote
deriving DecidableEq

/-- What becomes of a byte. -/
inductive Action where
  | skip
  | keep
  | endField
  | endRecord
deriving DecidableEq

namespace Place

/-- A byte outside quotes; a quote has no meaning there. -/
def stepPlain (b : UInt8) : Place × Action :=
  if b = comma then (fieldStart, .endField)
  else if isLineEnd b then (recordStart, .endRecord)
  else (plain, .keep)

/-- The first byte of a field. -/
def stepStart (b : UInt8) : Place × Action :=
  if b = quote then (quoted, .skip) else stepPlain b

/-- What a byte means at a place, and the place after it. Lines with nothing on them are no
records, and what follows a closing quote belongs to the field. -/
def step : Place → UInt8 → Place × Action
  | recordStart, b => if isLineEnd b then (recordStart, .skip) else stepStart b
  | fieldStart, b => stepStart b
  | plain, b => stepPlain b
  | quoted, b => if b = quote then (afterQuote, .skip) else (quoted, .keep)
  | afterQuote, b => if b = quote then (quoted, .keep) else stepPlain b

end Place

/-- Reads on within a record of which `fields` are finished and `field` is begun, the last field and
the last byte standing first. The end of the input ends a record that has begun. -/
def readFrom (place : Place) (fields : List Field) (field : Field) : List UInt8 → List Record
  | [] => if place = .recordStart then [] else [(field.reverse :: fields).reverse]
  | b :: rest =>
      match place.step b with
      | (next, .skip) => readFrom next fields field rest
      | (next, .keep) => readFrom next fields (b :: field) rest
      | (next, .endField) => readFrom next (field.reverse :: fields) [] rest
      | (next, .endRecord) => (field.reverse :: fields).reverse :: readFrom next [] [] rest

/-- The input without the byte order mark that may precede it. -/
def dropMark : List UInt8 → List UInt8
  | 0xEF :: 0xBB :: 0xBF :: rest => rest
  | bytes => bytes

/-- The records of an input, blank lines left out. -/
def read (bytes : List UInt8) : List Record :=
  readFrom .recordStart [] [] (dropMark bytes)

end Ledger.Csv
