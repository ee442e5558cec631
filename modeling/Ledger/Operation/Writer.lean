import Ledger.Csv
import Ledger.Operation.Basic
import Ledger.Text.Utf8

namespace Ledger

/-- The row that asks for an operation. -/
def Operation.row : Operation → Row
  | openAccount user product currency =>
      { verb := Verb.openAccount.name, user, product := some product, currency := some currency }
  | deposit user account amount =>
      { verb := Verb.deposit.name, user, account := some account, amount := some amount.toText }
  | transfer r =>
      { verb := (match r.kind with
          | .internal => Verb.transfer
          | .external => Verb.external).name
        user := r.user
        account := some r.source
        destination := some r.destination
        amount := some r.amount.toText
        description := some r.description }
  | close user account => { verb := Verb.close.name, user, account := some account }

namespace Row

/-- The text under a column; an absent field is empty. -/
def text (row : Row) : Column → List Char
  | .verb => row.verb.toList
  | .user => Numeral.write row.user
  | .account => row.account.elim [] Numeral.write
  | .destination => row.destination.elim [] Numeral.write
  | .amount => (row.amount.getD "").toList
  | .product => (row.product.getD "").toList
  | .currency => (row.currency.getD "").toList
  | .description => (row.description.getD "").toList

def record (row : Row) : Csv.Record :=
  Column.all.map fun column => Utf8.encode (row.text column)

end Row

/-- The first record of an operation file. -/
def Operation.header : Csv.Record :=
  Column.all.map fun column => Utf8.encode column.name.toList

/-- The operation file that asks for the given operations in order. -/
def Operation.writeAll (operations : List Operation) : List UInt8 :=
  Csv.write (header :: operations.map fun operation => operation.row.record)

end Ledger
