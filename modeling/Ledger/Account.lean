import Ledger.Decimal.Basic
import Ledger.Timestamp.Basic

namespace Ledger

abbrev UserId := Nat

abbrev AccountId := Nat

inductive AccountStatus where
  | active
  | closed
deriving DecidableEq

namespace AccountStatus

def toText : AccountStatus → String
  | active => "active"
  | closed => "closed"

def ofText? (s : String) : Option AccountStatus :=
  [active, closed].find? fun status => status.toText = s

@[simp] theorem ofText?_toText (status : AccountStatus) : ofText? status.toText = some status := by
  cases status <;> decide

end AccountStatus

/-- A row of the accounts table. Every write of a row raises its version by one. -/
structure Account where
  id : AccountId
  user : UserId
  product : String
  currency : String
  balance : Decimal
  status : AccountStatus
  version : Nat
  createdAt : Timestamp
  updatedAt : Timestamp
deriving DecidableEq

/-- An account to be opened; its id, version and times are the store's to give. -/
structure NewAccount where
  user : UserId
  product : String
  currency : String
  balance : Decimal
  status : AccountStatus
deriving DecidableEq

end Ledger
