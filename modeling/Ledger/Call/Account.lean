import Ledger.Call.Basic

namespace Ledger

/-- The ASCII letters in upper case; other characters stay. -/
def upperCase (s : String) : String :=
  String.ofList (s.toList.map Char.toUpper)

/-- Whether a text is a currency code: three ASCII letters. -/
def isCurrencyCode (s : String) : Bool :=
  s.toList.length = 3 && s.toList.all Char.isAlpha

/-- The account that an opening request describes: it starts active and empty. Blanks around the
inputs do not count, and the currency is taken in upper case. -/
def NewAccount.ofInput (user : UserId) (product currency : String) :
    Except LedgerError NewAccount :=
  let product := trim product
  let currency := upperCase (trim currency)
  if product.isEmpty then .error (.validation "account_type" "must not be empty")
  else if !isCurrencyCode currency then
    .error (.validation "currency" s!"'{currency}' is not a three-letter code")
  else
    .ok
      { user, product, currency
        balance :=
          .zero (Currency.minorUnits currency)
            (Nat.le_trans (Currency.minorUnits_le _) (by decide))
        status := .active }

namespace Work

def openAccount (new : NewAccount) : Work Account :=
  ask (.insertAccount new) succeed

/-- The description that every deposit is entered with. -/
def depositDescription : String :=
  "Account deposit"

/-- Credits a row under its lock. -/
def stageDeposit (user : UserId) (account : AccountId) (amount : Decimal) : Work Account :=
  ask (.lock account) fun row =>
    if row.user ≠ user then refuse (.notFound .account account)
    else if row.status ≠ .active then refuse (.accountClosed account)
    else
      match Currency.credit? row.balance amount with
      | none => refuse (.invalidAmount amount "balance would overflow")
      | some balance =>
          ask (.save { row with balance }) fun _ =>
            ask (.append ⟨user, none, account, amount, depositDescription, .deposit⟩) fun _ =>
              succeed { row with balance }

/-- Credits an account with money from outside the ledger. It returns the row as the commit wrote
it, and the log entry. -/
def deposit (user : UserId) (account : AccountId) (amount : Decimal) :
    Work (Account × Transaction) :=
  ask (.ownedAccount user account) fun found =>
    match Currency.scale? amount found.currency with
    | none =>
        refuse (.invalidAmount amount s!"not representable at the {found.currency} minor unit")
    | some amount =>
        inUnit (stageDeposit user account amount) fun staged =>
          commitEntry fun committed entry =>
            match committed.accounts.find? (·.id = account) with
            | some row => succeed (row, entry)
            | none => succeed ({ staged with version := staged.version + 1 }, entry)

/-- Marks a row closed under its lock; tells whether it was open. -/
def stageClose (user : UserId) (account : AccountId) : Work Bool :=
  ask (.lock account) fun row =>
    if row.user ≠ user then refuse (.notFound .account account)
    else if row.status = .closed then succeed false
    else if !row.balance.isZero then refuse (.nonZeroBalance account row.balance)
    else ask (.save { row with status := .closed }) fun _ => succeed true

/-- Closes an account; one that is closed already is left as it is. -/
def close (user : UserId) (account : AccountId) : Work Bool :=
  ask (.ownedAccount user account) fun _ =>
    inUnit (stageClose user account) fun
      | true => ask .commit fun _ => succeed true
      | false => abort (succeed false)

end Work

end Ledger
