import Ledger.Record

namespace Ledger

/-- A committed change that is announced on the event bus. -/
inductive Event where
  | accountCreated (account : AccountId) (user : UserId) (product currency : String)
      (status : AccountStatus)
  | transactionCompleted (transaction : TransactionId) (user : UserId)
      (source : Option AccountId) (destination : AccountId) (amount : Decimal)
      (kind : TransactionKind) (createdAt : Timestamp)
deriving DecidableEq

/-- What the event bus carries. Keys and payloads are bytes on the bus; those of events are always
the bytes of texts, and the texts stand for them. -/
structure Message where
  topic : String
  key : String
  payload : String
deriving DecidableEq

namespace Event

/-- The announcement of a new account. -/
def ofAccount (a : Account) : Event :=
  accountCreated a.id a.user a.product a.currency a.status

/-- The announcement of a deposit or transfer. -/
def ofTransaction (t : Transaction) : Event :=
  transactionCompleted t.id t.user t.source t.destination t.amount t.kind t.createdAt

def topic : Event → String
  | accountCreated .. => "account.created"
  | transactionCompleted .. => "transaction.completed"

/-- The id of the row that the event is about. -/
def key : Event → String
  | accountCreated account .. => String.ofList (Numeral.write account)
  | transactionCompleted transaction .. => String.ofList (Numeral.write transaction)

def body : Event → Json
  | accountCreated account user product currency status =>
      .object
        [(some "account_id", .ofNat account),
          (some "user_id", .ofNat user),
          (some "type", .string product),
          (some "currency", .string currency),
          (some "status", .string status.toText)]
  | transactionCompleted transaction user source destination amount kind createdAt =>
      .object
        [(some "transaction_id", .ofNat transaction),
          (some "user_id", .ofNat user),
          (some "from_account_id", .ofOptionNat source),
          (some "to_account_id", .ofNat destination),
          (some "amount", amount.toJson),
          (some "type", .string kind.toText),
          (some "created_at", createdAt.toJson)]

def payload (e : Event) : String :=
  e.body.toText

def message (e : Event) : Message :=
  ⟨e.topic, e.key, e.payload⟩

end Event

end Ledger
