import Ledger.Decimal.Basic

namespace Ledger

/-- A storm of random transfers between accounts that start with the same balance. -/
structure Simulation where
  accounts : Nat
  transfers : Nat
  /-- The number of threads; one for each processor if none is given. -/
  workers : Option Nat
  seed : Nat
  initialBalance : Decimal
deriving DecidableEq

namespace Simulation

def standard : Simulation where
  accounts := 16
  transfers := 1000
  workers := none
  seed := 42
  initialBalance := .cents 100000

/-- A transfer needs two accounts: with fewer there are as many as in the standard simulation. No
workers at all stands for the standard number of them. -/
def validated (accounts transfers : Nat) (workers : Option Nat) (seed : Nat) : Simulation where
  accounts := if accounts < 2 then standard.accounts else accounts
  transfers := transfers
  workers := workers.filter (· ≠ 0)
  seed := seed
  initialBalance := standard.initialBalance

/-- The currency of all accounts. -/
def currency : String :=
  "USD"

/-- The owner of the account with the given index: two accounts in a row have one owner, so that
some transfers stay with one user and some do not. -/
def ownerOf (index : Nat) : Nat :=
  index / 2 + 1

end Simulation

end Ledger
