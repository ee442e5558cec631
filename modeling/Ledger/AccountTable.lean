import Ledger.Account
import Ledger.Csv
import Ledger.Decimal.Text
import Ledger.Text.Utf8

namespace Ledger.AccountTable

/-- The texts of the first record. -/
def header : List String :=
  ["id", "user", "type", "currency", "balance", "status"]

/-- The texts under the header; the balance keeps the places it is stored with. -/
def fields (a : Account) : List String :=
  [String.ofList (Numeral.write a.id), String.ofList (Numeral.write a.user), a.product, a.currency,
    a.balance.toText, a.status.toText]

def record (texts : List String) : Csv.Record :=
  texts.map fun s => Utf8.encode s.toList

/-- The accounts by ascending id; accounts of one id stay in their order. -/
def sorted (accounts : List Account) : List Account :=
  accounts.mergeSort fun a b => decide (a.id ≤ b.id)

/-- The accounts as CSV, ascending by id. -/
def write (accounts : List Account) : List UInt8 :=
  Csv.write (record header :: (sorted accounts).map fun a => record (fields a))

/-- Why a table could not be put out: the sink failed among the rows, or at the end. -/
inductive OutputError where
  | record (reason : String)
  | flush (reason : String)
deriving DecidableEq

def OutputError.message : OutputError → String
  | record reason => s!"Failed to write account record: {reason}"
  | flush reason => s!"Failed to flush output: {reason}"

/-- The bytes held back before they are passed on to a sink. -/
def bufferSize : Nat :=
  8192

/-- How many of `size` bytes have been passed on when the rest is flushed: a full buffer leaves when
the next byte comes. -/
def passedOn (size : Nat) : Nat :=
  (size - 1) / bufferSize * bufferSize

/-- Puts the table of the accounts into a sink that holds `room` bytes and then fails for the given
reason. -/
def putOut (accounts : List Account) (room : Nat) (reason : String) : Except OutputError Unit :=
  let size := (write accounts).length
  if size ≤ room then .ok ()
  else if room < passedOn size then .error (.record reason)
  else .error (.flush reason)

end Ledger.AccountTable
