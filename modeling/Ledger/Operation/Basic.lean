import Ledger.Call.Request

namespace Ledger

/-- A change of the ledger that an operation file asks for. -/
inductive Operation where
  | openAccount (user : UserId) (product currency : String)
  | deposit (user : UserId) (account : AccountId) (amount : Decimal)
  | transfer (request : TransferRequest)
  | close (user : UserId) (account : AccountId)
deriving DecidableEq

/-- The ledger call that carries an operation out. -/
def Operation.request : Operation → Request
  | openAccount user product currency => .openAccount user product currency
  | deposit user account amount => .deposit user account amount
  | transfer request => .transfer request
  | close user account => .close user account

/-- The first word of a row: what it asks for. -/
inductive Verb where
  | openAccount
  | deposit
  | transfer
  | external
  | close
deriving DecidableEq

namespace Verb

def name : Verb → String
  | openAccount => "open"
  | deposit => "deposit"
  | transfer => "transfer"
  | external => "external"
  | close => "close"

def all : List Verb :=
  [openAccount, deposit, transfer, external, close]

/-- Blanks around a verb and the case of its letters do not count. No letter outside ASCII has one
of a verb's letters as its lower case. -/
def ofText? (s : String) : Option Verb :=
  let word := (trimBlanks s.toList).map Char.toLower
  all.find? fun verb => verb.name.toList = word

@[simp] theorem ofText?_name (verb : Verb) : ofText? verb.name = some verb := by
  cases verb <;> decide

end Verb

/-- The columns of an operation file. -/
inductive Column where
  | verb
  | user
  | account
  | destination
  | amount
  | product
  | currency
  | description
deriving DecidableEq

namespace Column

def name : Column → String
  | verb => "op"
  | user => "user"
  | account => "account"
  | destination => "to"
  | amount => "amount"
  | product => "account_type"
  | currency => "currency"
  | description => "description"

/-- All columns, in the order in which they are written. -/
def all : List Column :=
  [verb, user, account, destination, amount, product, currency, description]

def ofName? (s : String) : Option Column :=
  all.find? fun column => column.name = s

@[simp] theorem ofName?_name (column : Column) : ofName? column.name = some column := by
  cases column <;> decide

end Column

/-- The fields of a line under their columns. Which of the optional ones it needs depends on its
verb. -/
structure Row where
  verb : String
  user : UserId
  account : Option AccountId := none
  destination : Option AccountId := none
  amount : Option String := none
  product : Option String := none
  currency : Option String := none
  description : Option String := none
deriving DecidableEq

/-- Why a row is no operation. -/
inductive RowError where
  | unknownVerb (text : String)
  | missing (verb : Verb) (column : Column)
  | missingAmount (verb : Verb)
  | invalidAmount (verb : Verb) (text : String)
deriving DecidableEq

def RowError.message : RowError → String
  | unknownVerb text => s!"Unknown operation: '{text}'"
  | missing verb column => s!"{verb.name} requires column '{column.name}'"
  | missingAmount verb => s!"{verb.name} requires an amount"
  | invalidAmount verb text => s!"Invalid amount '{text}' for {verb.name}"

/-- Takes a field that the verb needs. -/
def Verb.require {α : Type} (verb : Verb) (column : Column) : Option α → Except RowError α
  | some a => .ok a
  | none => .error (.missing verb column)

namespace Row

/-- The amount of a row; blanks around it do not count. -/
def readAmount (row : Row) (verb : Verb) : Except RowError Decimal :=
  match row.amount with
  | none => .error (.missingAmount verb)
  | some text =>
      let digits := trim text
      if digits.isEmpty then .error (.missingAmount verb)
      else
        match Decimal.ofString? digits with
        | some amount => .ok amount
        | none => .error (.invalidAmount verb text)

/-- The transfer that a row describes. -/
def readTransfer (row : Row) (verb : Verb) (kind : TransferKind) :
    Except RowError TransferRequest := do
  let source ← verb.require .account row.account
  let destination ← verb.require .destination row.destination
  let amount ← row.readAmount verb
  return { user := row.user, source, destination, amount,
           description := row.description.getD "", kind }

/-- The operation that a row describes. Only the form of the row is tested: whether the ledger will
do it is for the ledger to say. -/
def operation (row : Row) : Except RowError Operation :=
  match Verb.ofText? row.verb with
  | none => .error (.unknownVerb row.verb)
  | some .openAccount => do
      let product ← Verb.openAccount.require .product row.product
      let currency ← Verb.openAccount.require .currency row.currency
      return .openAccount row.user product currency
  | some .deposit => do
      let account ← Verb.deposit.require .account row.account
      let amount ← row.readAmount .deposit
      return .deposit row.user account amount
  | some .transfer => (row.readTransfer .transfer .internal).map .transfer
  | some .external => (row.readTransfer .external .external).map .transfer
  | some .close => (Verb.close.require .account row.account).map (.close row.user)

end Row

end Ledger
