import Ledger.Decimal.Binary64
import Ledger.Json.Number
import Ledger.Json.Reader
import Ledger.Json.Writer
import Ledger.Timestamp.Text
import Ledger.Transaction

namespace Ledger

/-- Decimals travel as strings with all their places. -/
def Decimal.toJson (d : Decimal) : Json :=
  .string d.toText

/-- The amount that a number stands for. A whole number of 64 bits, with its sign, is exact; any
other is worth what the text of the floating-point number next to it says. -/
def Decimal.ofParts? (n : Json.NumberParts) : Option Decimal :=
  let bound := if n.negative then Nat.pow 2 63 + 1 else Nat.pow 2 64
  if n.whole ∧ n.significand < bound then ofDigits? n.negative n.significand 0
  else
    (Binary64.ofDecimal? n.significand n.exponent).bind fun b =>
      ofString? (String.ofList (if n.negative then '-' :: b.text else b.text))

/-- A decimal is a string in either notation, or a number. -/
def Decimal.ofJson? : Json → Option Decimal
  | .string text => ofString? text
  | .number literal => ofParts? (Json.partsOf literal)
  | _ => none

def Timestamp.toJson (t : Timestamp) : Json :=
  .string t.toText

def Timestamp.ofJson? (value : Json) : Option Timestamp :=
  value.string?.bind ofString?

namespace Account

def memberNames : List String :=
  ["id", "user_id", "type", "currency", "balance", "status", "version", "created_at", "updated_at"]

def toJson (a : Account) : Json :=
  .object
    [(some "id", .ofNat a.id),
      (some "user_id", .ofNat a.user),
      (some "type", .string a.product),
      (some "currency", .string a.currency),
      (some "balance", a.balance.toJson),
      (some "status", .string a.status.toText),
      (some "version", .ofNat a.version),
      (some "created_at", a.createdAt.toJson),
      (some "updated_at", a.updatedAt.toJson)]

def ofMembers? (members : List Json.Member) : Option Account := do
  let id ← (Json.required? "id" members).bind Json.natural?
  let user ← (Json.required? "user_id" members).bind Json.natural?
  let product ← (Json.required? "type" members).bind Json.string?
  let currency ← (Json.required? "currency" members).bind Json.string?
  let balance ← (Json.required? "balance" members).bind Decimal.ofJson?
  let status ← ((Json.required? "status" members).bind Json.choice?).bind AccountStatus.ofText?
  let version ← (Json.required? "version" members).bind Json.natural?
  let createdAt ← (Json.required? "created_at" members).bind Timestamp.ofJson?
  let updatedAt ← (Json.required? "updated_at" members).bind Timestamp.ofJson?
  pure ⟨id, user, product, currency, balance, status, version, createdAt, updatedAt⟩

def ofJson? (value : Json) : Option Account :=
  (value.fields? memberNames).bind ofMembers?

def encode (a : Account) : String :=
  a.toJson.toText

def decode? (text : String) : Option Account :=
  (Json.ofText? text).bind ofJson?

end Account

namespace Transaction

def memberNames : List String :=
  ["id", "user_id", "from_account_id", "to_account_id", "amount", "description", "type",
    "created_at"]

def toJson (t : Transaction) : Json :=
  .object
    [(some "id", .ofNat t.id),
      (some "user_id", .ofNat t.user),
      (some "from_account_id", .ofOptionNat t.source),
      (some "to_account_id", .ofNat t.destination),
      (some "amount", t.amount.toJson),
      (some "description", .string t.description),
      (some "type", .string t.kind.toText),
      (some "created_at", t.createdAt.toJson)]

def ofMembers? (members : List Json.Member) : Option Transaction := do
  let id ← (Json.required? "id" members).bind Json.natural?
  let user ← (Json.required? "user_id" members).bind Json.natural?
  let source ← (Json.optional? "from_account_id" members).bind Json.optionNatural?
  let destination ← (Json.required? "to_account_id" members).bind Json.natural?
  let amount ← (Json.required? "amount" members).bind Decimal.ofJson?
  let description ← (Json.required? "description" members).bind Json.string?
  let kind ← ((Json.required? "type" members).bind Json.choice?).bind TransactionKind.ofText?
  let createdAt ← (Json.required? "created_at" members).bind Timestamp.ofJson?
  pure ⟨id, user, source, destination, amount, description, kind, createdAt⟩

def ofJson? (value : Json) : Option Transaction :=
  (value.fields? memberNames).bind ofMembers?

def encode (t : Transaction) : String :=
  t.toJson.toText

def decode? (text : String) : Option Transaction :=
  (Json.ofText? text).bind ofJson?

end Transaction

def AccountStatus.decode? (text : String) : Option AccountStatus :=
  ((Json.ofText? text).bind Json.choice?).bind ofText?

def TransactionKind.decode? (text : String) : Option TransactionKind :=
  ((Json.ofText? text).bind Json.choice?).bind ofText?

def TransferKind.decode? (text : String) : Option TransferKind :=
  ((Json.ofText? text).bind Json.choice?).bind ofText?

end Ledger
