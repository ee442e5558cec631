import Ledger.Store.Basic

namespace Ledger.Scenario

/-- The store calls that can be made to fail. -/
inductive Point where
  | ownerRead
  | accountRead
  | list
  | insert
  | query
  | transactionRead
  | begin
  | lock
  | save
  | append
  | commit
  | rollback
deriving DecidableEq

def Point.all : List (String × Point) :=
  [("owner_read", ownerRead), ("account_read", accountRead), ("list", list), ("insert", insert),
    ("query", query), ("tx_read", transactionRead), ("begin", begin), ("lock", lock),
    ("save", save), ("append", append), ("commit", commit), ("rollback", rollback)]

def Point.ofText? (s : String) : Option Point :=
  all.lookup s

/-- The point that a store call passes. -/
def Point.of? : StoreCall → Option Point
  | .ownedAccount .. => some ownerRead
  | .account _ => some accountRead
  | .accountsOf _ => some list
  | .insertAccount _ => some insert
  | .query _ => some query
  | .transaction _ => some transactionRead
  | .begin => some begin
  | .lock _ => some lock
  | .save _ => some save
  | .append _ => some append
  | .commit => some commit
  | .rollback => some rollback
  | .saveAccount _ | .insertTransaction _ => none

/-- New values for some fields of an account. -/
structure RowChange where
  user : Option UserId := none
  product : Option String := none
  currency : Option String := none
  balance : Option Decimal := none
  status : Option AccountStatus := none
  version : Option Nat := none
deriving DecidableEq

def RowChange.apply (c : RowChange) (row : Account) : Account :=
  { row with
    user := c.user.getD row.user
    product := c.product.getD row.product
    currency := c.currency.getD row.currency
    balance := c.balance.getD row.balance
    status := c.status.getD row.status
    version := c.version.getD row.version }

inductive Loss where
  | accounts
  | transactions
deriving DecidableEq

/-- What happens to a call that is hit: it fails unmade or once made, it is held up, a row is
written behind its back first, or a part of what it returns goes missing. -/
inductive FaultAction where
  | fail (e : StoreError)
  | failAfter (e : StoreError)
  | delay (millis : Nat)
  | alter (id : AccountId) (change : RowChange)
  | lose (part : Loss)
deriving DecidableEq

/-- A fault lets the first `skip` calls pass and hits the next `times`. -/
structure Fault where
  skip : Nat
  times : Nat
  action : FaultAction
deriving DecidableEq

/-- The armed faults, at most one to a point. -/
abbrev Faults := List (Point × Fault)

namespace Faults

def arm (f : Faults) (p : Point) (fault : Fault) : Faults :=
  (p, fault) :: f.filter (·.1 ≠ p)

/-- Lets a call pass a point: the action it is hit by, if any, is used up. -/
def trip (f : Faults) (p : Point) : Faults × Option FaultAction :=
  match f.lookup p with
  | none => (f, none)
  | some fault =>
      if 0 < fault.skip then (f.arm p { fault with skip := fault.skip - 1 }, none)
      else if 0 < fault.times then
        (f.arm p { fault with times := fault.times - 1 }, some fault.action)
      else (f, none)

end Faults

/-- The answer to a commit without one of its parts; other answers stay. -/
def Loss.from (part : Loss) : (c : StoreCall) → c.Answer → c.Answer
  | .commit, .ok committed =>
      match part with
      | .accounts => .ok { committed with accounts := [] }
      | .transactions => .ok { committed with transactions := [] }
  | _, answer => answer

end Ledger.Scenario
