import Ledger.Config
import Ledger.Currency
import Ledger.Event
import Ledger.Store.Basic
import Ledger.Text.Blank

namespace Ledger

/-- What a user can ask of the ledger. -/
inductive Request where
  | openAccount (user : UserId) (product currency : String)
  | deposit (user : UserId) (account : AccountId) (amount : Decimal)
  | transfer (request : TransferRequest)
  | close (user : UserId) (account : AccountId)
  | accounts (user : UserId)
  | account (user : UserId) (id : AccountId)
  | transactions (filter : Filter)
  | transaction (id : TransactionId)
deriving DecidableEq

/-- What a request returns when it succeeds. Closing tells whether the account was open before. -/
inductive Reply where
  | opened (account : Account)
  | deposited (account : Account) (entry : Transaction)
  | transferred (entry : Transaction)
  | closed (changed : Bool)
  | accounts (rows : List Account)
  | account (row : Account)
  | transactions (entries : List Transaction)
  | transaction (entry : Transaction)
deriving DecidableEq

/-- The committed change that a reply announces. -/
def Reply.event? : Reply → Option Event
  | opened row => some (.ofAccount row)
  | deposited _ entry => some (.ofTransaction entry)
  | transferred entry => some (.ofTransaction entry)
  | _ => none

/-- The store work of a ledger call. -/
abbrev Work (α : Type) : Type :=
  Procedure (Except LedgerError α)

namespace Work

variable {α β : Type}

def succeed (a : α) : Work α :=
  .done (.ok a)

def refuse (e : LedgerError) : Work α :=
  .done (.error e)

/-- Goes on with what a store call returns; its failure ends the work. -/
def ask (c : StoreCall) (next : c.Value → Work α) : Work α :=
  .call c fun
    | .ok value => next value
    | .error e => refuse (.ofStore e)

/-- Gives a unit of work up. What comes after does not depend on whether that succeeds, for a
dropped unit releases its rows in any case. -/
def abort (next : Work α) : Work α :=
  .call .rollback fun _ => next

/-- Stages writes in a unit of work and goes on with what was staged, or gives the unit up and
fails. -/
def inUnit (stage : Work β) (finish : β → Work α) : Work α :=
  ask .begin fun _ =>
    stage.bind fun
      | .ok staged => finish staged
      | .error e => abort (refuse e)

/-- Commits a unit that staged one log entry. -/
def commitEntry (next : Committed → Transaction → Work α) : Work α :=
  ask .commit fun committed =>
    match committed.transactions.getLast? with
    | some entry => next committed entry
    | none => refuse (.persistence (.unavailable "commit returned no transaction"))

end Work

end Ledger
