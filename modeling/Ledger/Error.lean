import Ledger.Decimal.Text
import Ledger.Transaction

namespace Ledger

inductive Entity where
  | account
  | transaction
deriving DecidableEq

def Entity.name : Entity → String
  | account => "Account"
  | transaction => "Transaction"

/-- Why the store refused or failed a call. -/
inductive StoreError where
  | notFound (entity : Entity) (id : Nat)
  | conflict (account : AccountId) (expected found : Nat)
  | notLocked (account : AccountId)
  | unavailable (reason : String)
  | timeout (millis : Nat)
  | closed
deriving DecidableEq

def StoreError.message : StoreError → String
  | notFound entity id => s!"{entity.name} {id} not found"
  | conflict account expected found =>
      s!"Version conflict on account {account}: expected {expected}, found {found}"
  | notLocked account => s!"Account {account} is not locked by this unit of work"
  | unavailable reason => s!"Store unavailable: {reason}"
  | timeout millis => s!"Operation timed out after {millis}ms"
  | closed => "Unit of work is closed"

/-- Why an event could not be published. -/
inductive PublishError where
  | unavailable (reason : String)
  | encoding (reason : String)
  | timeout (millis : Nat)
deriving DecidableEq

def PublishError.message : PublishError → String
  | unavailable reason => s!"Event bus unavailable: {reason}"
  | encoding reason => s!"Event encoding failed: {reason}"
  | timeout millis => s!"Publish timed out after {millis}ms"

/-- Why a ledger call was refused or failed. -/
inductive LedgerError where
  | notFound (entity : Entity) (id : Nat)
  | invalidRequest (reason : String)
  | validation (field reason : String)
  | invalidAmount (amount : Decimal) (reason : String)
  | insufficientFunds (account : AccountId) (available requested : Decimal)
  | accountClosed (account : AccountId)
  | nonZeroBalance (account : AccountId) (balance : Decimal)
  | persistence (cause : StoreError)
  | publishFailure (topic : String) (cause : PublishError)
deriving DecidableEq

inductive ErrorKind where
  | notFound
  | invalidRequest
  | validation
  | invalidAmount
  | insufficientFunds
  | accountClosed
  | nonZeroBalance
  | persistenceFailure
  | publishFailure
deriving DecidableEq

def ErrorKind.name : ErrorKind → String
  | notFound => "not_found"
  | invalidRequest => "invalid_request"
  | validation => "validation"
  | invalidAmount => "invalid_amount"
  | insufficientFunds => "insufficient_funds"
  | accountClosed => "account_closed"
  | nonZeroBalance => "non_zero_balance"
  | persistenceFailure => "persistence_failure"
  | publishFailure => "publish_failure"

namespace LedgerError

def kind : LedgerError → ErrorKind
  | notFound .. => .notFound
  | invalidRequest _ => .invalidRequest
  | validation .. => .validation
  | invalidAmount .. => .invalidAmount
  | insufficientFunds .. => .insufficientFunds
  | accountClosed _ => .accountClosed
  | nonZeroBalance .. => .nonZeroBalance
  | persistence _ => .persistenceFailure
  | publishFailure .. => .publishFailure

/-- Whether the same call may succeed when it is made again. -/
def isTransient : LedgerError → Bool
  | persistence _ | publishFailure .. => true
  | _ => false

def message : LedgerError → String
  | notFound entity id => s!"{entity.name} {id} not found"
  | invalidRequest reason => s!"Invalid request: {reason}"
  | validation field reason => s!"Invalid {field}: {reason}"
  | invalidAmount amount reason => s!"Invalid amount {amount.toText}: {reason}"
  | insufficientFunds account available requested =>
      s!"Insufficient funds on account {account}: " ++
        s!"available {available.toText}, requested {requested.toText}"
  | accountClosed account => s!"Account {account} is closed"
  | nonZeroBalance account balance =>
      s!"Account {account} has non-zero balance {balance.toText}"
  | persistence cause => s!"Persistence failure: {cause.message}"
  | publishFailure topic cause => s!"Failed to publish to {topic}: {cause.message}"

/-- A row that the store does not have is the caller's error; all else is the store's. -/
def ofStore : StoreError → LedgerError
  | .notFound entity id => notFound entity id
  | cause => persistence cause

end LedgerError

end Ledger
