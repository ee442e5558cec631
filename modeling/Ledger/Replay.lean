import Ledger.AccountTable
import Ledger.Operation.Reader
import Ledger.Service

namespace Ledger

/-- A ledger that an operation file is being replayed on, with what has become of its items. -/
structure Replay where
  service : Service
  applied : Nat := 0
  rejected : Nat := 0
  malformed : Nat := 0
deriving DecidableEq

namespace Replay

def start (config : Config) : Replay :=
  { service := .start config }

/-- Carries out one item at the clock reading `now`. What is refused or cannot be understood is
counted and passed over. -/
def step (r : Replay) (now : Timestamp) : Item → Replay
  | .error _ => { r with malformed := r.malformed + 1 }
  | .ok operation =>
      match r.service.call now operation.request with
      | (service, .ok _) => { r with service, applied := r.applied + 1 }
      | (service, .error _) => { r with service, rejected := r.rejected + 1 }

/-- Carries out the items in order, each at a clock reading of its own, and stops the service. -/
def run (config : Config) (clock : Nat → Timestamp) (items : List Item) : Replay :=
  let r := items.zipIdx.foldl (fun r (item, index) => r.step (clock index) item) (start config)
  { r with service := r.service.shutdown.1 }

/-- The accounts as the replay left them. -/
def accounts (r : Replay) : List Account :=
  r.service.store.tables.accounts

/-- Why a replay has no result. -/
inductive Failure where
  | input (path reason : String)
  | output (cause : AccountTable.OutputError)
deriving DecidableEq

def Failure.message : Failure → String
  | input path reason => s!"Failed to open file '{path}': {reason}"
  | output cause => cause.message

end Replay

end Ledger
