import Ledger.Account
import Ledger.Decimal.Text
import Ledger.Duration

namespace Ledger

/-- Why the books of a simulation do not balance, or cannot be added up. -/
inductive AuditError where
  | negativeBalances (accounts : List AccountId)
  | notConserved (expected found : Decimal)
  | sumOverflow
  | productOverflow
deriving DecidableEq

def AuditError.message : AuditError → String
  | negativeBalances accounts =>
      "negative balance on accounts [" ++ ", ".intercalate (accounts.map toString) ++ "]"
  | notConserved expected found =>
      s!"funds not conserved: expected {expected.toText}, found {found.toText}"
  | sumOverflow => "Addition overflowed"
  | productOverflow => "Multiplication overflowed"

/-- The number of accounts as a decimal number; there are never more than a word can count. -/
def countOf (accounts : List Account) : Decimal :=
  (Decimal.ofDigits? false accounts.length 0).getD 0

/-- The sum of the balances, once it is known that none is negative and that the sum is worth the
initial balance times the number of accounts. -/
def audit (initial : Decimal) (accounts : List Account) : Except AuditError Decimal :=
  match accounts.filter (·.balance < 0) with
  | [] =>
      match Decimal.sum? (accounts.map (·.balance)), initial.mul? (countOf accounts) with
      | none, _ => .error .sumOverflow
      | _, none => .error .productOverflow
      | some total, some expected =>
          if Decimal.SameValue total expected then .ok total
          else .error (.notConserved expected total)
  | debtors => .error (.negativeBalances (debtors.map (·.id)))

namespace Simulation

/-- How the transfers of a simulation ended. -/
structure Tally where
  committed : Nat := 0
  insufficientFunds : Nat := 0
  otherFailures : Nat := 0
deriving DecidableEq

/-- What a simulation came to once its books were added up. -/
structure Result where
  accounts : Nat
  attempted : Nat
  tally : Tally
  totalBalance : Decimal
deriving DecidableEq

/-- A result with the time that the transfers took. -/
structure Report extends Result where
  elapsed : Duration
deriving DecidableEq

/-- The report as lines of text, the last one without an end. -/
def Report.toText (r : Report) : String :=
  "\n".intercalate
    [s!"accounts:           {r.accounts}",
      s!"transfers:          {r.attempted}",
      s!"committed:          {r.tally.committed}",
      s!"insufficient funds: {r.tally.insufficientFunds}",
      s!"other failures:     {r.tally.otherFailures}",
      s!"total balance:      {r.totalBalance.toText}",
      s!"elapsed:            {r.elapsed.toText}"]

end Simulation

end Ledger
