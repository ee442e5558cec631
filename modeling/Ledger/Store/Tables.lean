import Ledger.Error
import Ledger.Filter

namespace Ledger

/-- The rows of the ledger: accounts ascending by id, and transactions in the order of their entry.
-/
structure Tables where
  accounts : List Account := []
  log : List Transaction := []
deriving DecidableEq

namespace Tables

def find? (t : Tables) (id : AccountId) : Option Account :=
  t.accounts.find? (·.id = id)

/-- The row of an account, whoever owns it. -/
def account (t : Tables) (id : AccountId) : Except StoreError Account :=
  match t.find? id with
  | some row => .ok row
  | none => .error (.notFound .account id)

/-- The row of an account, if it belongs to `owner`. -/
def ownedAccount (t : Tables) (owner : UserId) (id : AccountId) : Except StoreError Account :=
  match t.find? id with
  | some row => if row.user = owner then .ok row else .error (.notFound .account id)
  | none => .error (.notFound .account id)

def accountsOf (t : Tables) (owner : UserId) : List Account :=
  t.accounts.filter (·.user = owner)

/-- The entry with the given id; entries count from one. -/
def transaction (t : Tables) (id : TransactionId) : Except StoreError Transaction :=
  match if id = 0 then none else t.log[id - 1]? with
  | some entry => .ok entry
  | none => .error (.notFound .transaction id)

/-- The id that the next account gets. -/
def nextId (t : Tables) : AccountId :=
  match t.accounts.getLast? with
  | some row => row.id + 1
  | none => 1

/-- The row of a new account. -/
def newRow (t : Tables) (now : Timestamp) (new : NewAccount) : Account where
  id := t.nextId
  user := new.user
  product := new.product
  currency := new.currency
  balance := new.balance
  status := new.status
  version := 0
  createdAt := now
  updatedAt := now

def insert (t : Tables) (now : Timestamp) (new : NewAccount) : Tables :=
  { t with accounts := t.accounts ++ [t.newRow now new] }

/-- Refuses a write that is based on another version of the row than the stored one. -/
def checkVersion (t : Tables) (id : AccountId) (expected : Nat) : Except StoreError Unit :=
  match t.account id with
  | .error e => .error e
  | .ok row => if row.version = expected then .ok () else .error (.conflict id expected row.version)

/-- A row as it is stored: one version on, and marked with the time of the write. -/
def stamp (now : Timestamp) (row : Account) : Account :=
  { row with version := row.version + 1, updatedAt := now }

/-- Puts a row in the place of the one with its id. -/
def replace (t : Tables) (row : Account) : Tables :=
  { t with accounts := t.accounts.map fun old => if old.id = row.id then row else old }

/-- The log entry of a new transaction. -/
def newEntry (t : Tables) (now : Timestamp) (new : NewTransaction) : Transaction where
  id := t.log.length + 1
  user := new.user
  source := new.source
  destination := new.destination
  amount := new.amount
  description := new.description
  kind := new.kind
  createdAt := now

def enter (t : Tables) (now : Timestamp) (new : NewTransaction) : Tables :=
  { t with log := t.log ++ [t.newEntry now new] }

end Tables

end Ledger
