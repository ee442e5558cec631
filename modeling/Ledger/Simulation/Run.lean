import Ledger.Service
import Ledger.Simulation.Plan
import Ledger.Simulation.Report

namespace Ledger.Simulation

/-- A service with the number of clock readings that have been taken. -/
structure Desk where
  service : Service
  readings : Nat := 0
deriving DecidableEq

/-- Makes a call at the next clock reading. -/
def Desk.call (d : Desk) (clock : Nat → Timestamp) (r : Request) :
    Desk × Except LedgerError Reply :=
  let (service, outcome) := d.service.call (clock d.readings) r
  ({ service, readings := d.readings + 1 }, outcome)

/-- Opens an account and pays its initial balance in. -/
def fund (sim : Simulation) (clock : Nat → Timestamp) (d : Desk) (index : Nat) :
    Except LedgerError Desk :=
  let id := d.service.store.tables.nextId
  match d.call clock (.openAccount (ownerOf index) "checking" currency) with
  | (_, .error e) => .error e
  | (d, .ok _) =>
      match d.call clock (.deposit (ownerOf index) id sim.initialBalance) with
      | (_, .error e) => .error e
      | (d, .ok _) => .ok d

/-- A new ledger with the accounts of a simulation. -/
def openAccounts (sim : Simulation) (config : Config) (clock : Nat → Timestamp) :
    Except LedgerError Desk :=
  (List.range sim.accounts).foldlM (sim.fund clock) { service := .start config }

def Tally.count (t : Tally) : Except LedgerError Reply → Tally
  | .ok _ => { t with committed := t.committed + 1 }
  | .error e =>
      if e.kind = .insufficientFunds then { t with insufficientFunds := t.insufficientFunds + 1 }
      else { t with otherFailures := t.otherFailures + 1 }

/-- Attempts the transfers one after the other. -/
def attempt (clock : Nat → Timestamp) (d : Desk) (requests : List TransferRequest) : Desk × Tally :=
  requests.foldl
    (fun (d, tally) request =>
      let (d, outcome) := d.call clock (.transfer request)
      (d, tally.count outcome))
    (d, {})

/-- Why a simulation has no report. -/
inductive Failure where
  | opening (cause : LedgerError)
  | audit (cause : AuditError)
deriving DecidableEq

def Failure.message : Failure → String
  | opening cause => s!"Failed to open simulation accounts: {cause.message}"
  | audit cause => cause.message

/-- Runs a simulation on an empty ledger, with the given draws. -/
def run (sim : Simulation) (config : Config) (clock : Nat → Timestamp) (draws : Draws) :
    Except Failure Result :=
  match sim.openAccounts config clock with
  | .error e => .error (.opening e)
  | .ok d =>
      let accounts := d.service.store.tables.accounts
      let requests := sim.plan accounts draws
      let (d, tally) := attempt clock d requests
      match audit sim.initialBalance d.service.shutdown.1.store.tables.accounts with
      | .error e => .error (.audit e)
      | .ok totalBalance =>
          .ok { accounts := accounts.length, attempted := requests.length, tally, totalBalance }

end Ledger.Simulation
