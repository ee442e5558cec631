import Ledger.Account

namespace Ledger

abbrev TransactionId := Nat

/-- Whether a transfer stays with one owner or may credit somebody else's account. -/
inductive TransferKind where
  | internal
  | external
deriving DecidableEq

inductive TransactionKind where
  | internal
  | external
  | deposit
deriving DecidableEq

namespace TransactionKind

def toText : TransactionKind → String
  | internal => "internal"
  | external => "external"
  | deposit => "deposit"

def ofText? (s : String) : Option TransactionKind :=
  [internal, external, deposit].find? fun kind => kind.toText = s

@[simp] theorem ofText?_toText (kind : TransactionKind) : ofText? kind.toText = some kind := by
  cases kind <;> decide

end TransactionKind

namespace TransferKind

/-- How a transfer of this kind is entered in the log. -/
def entry : TransferKind → TransactionKind
  | internal => .internal
  | external => .external

def toText (kind : TransferKind) : String :=
  kind.entry.toText

def ofText? (s : String) : Option TransferKind :=
  [internal, external].find? fun kind => kind.toText = s

@[simp] theorem ofText?_toText (kind : TransferKind) : ofText? kind.toText = some kind := by
  cases kind <;> decide

end TransferKind

/-- A row of the transaction log. Money that enters from outside the ledger has no source. -/
structure Transaction where
  id : TransactionId
  user : UserId
  source : Option AccountId
  destination : AccountId
  amount : Decimal
  description : String
  kind : TransactionKind
  createdAt : Timestamp
deriving DecidableEq

/-- A movement of money to be entered in the log, which gives it an id and a time. -/
structure NewTransaction where
  user : UserId
  source : Option AccountId
  destination : AccountId
  amount : Decimal
  description : String
  kind : TransactionKind
deriving DecidableEq

/-- A request to move money between two accounts, the source being the caller's own. -/
structure TransferRequest where
  user : UserId
  source : AccountId
  destination : AccountId
  amount : Decimal
  description : String
  kind : TransferKind
deriving DecidableEq

end Ledger
