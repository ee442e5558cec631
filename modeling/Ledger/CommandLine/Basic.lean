import Ledger.Config
import Ledger.Text.Integer

namespace Ledger.CommandLine

/-- Why a command line is not carried out. -/
inductive UsageError where
  | helpWanted
  | nothingGiven
  | noCommand
  | unknownCommand
  | unknownArgument
  | missingArgument
  | invalidValue
  | invalidNumber
  | repeatedArgument
  | unneededValue
deriving DecidableEq

/-- What can be set. All but the input are options. -/
inductive Setting where
  | publishMode
  | timeout
  | jsonLogs
  | input
  | accounts
  | transfers
  | workers
  | seed
deriving DecidableEq

def Setting.name : Setting → String
  | publishMode => "publish-mode"
  | timeout => "timeout-ms"
  | jsonLogs => "json-logs"
  | input => "INPUT"
  | accounts => "accounts"
  | transfers => "transfers"
  | workers => "workers"
  | seed => "seed"

/-- The first word of a command line that is no option, nor the value of one. -/
inductive Verb where
  | replay
  | simulate
  | help
deriving DecidableEq

def Verb.ofWord? : String → Option Verb
  | "replay" => some replay
  | "simulate" => some simulate
  | "help" => some help
  | _ => none

/-- Where an argument stands: before the verb, or after it. -/
inductive Level where
  | top
  | replay
  | simulate
deriving DecidableEq

/-- The options known at a level. Those known at the top are known everywhere. -/
def Level.options : Level → List Setting
  | top | replay => [.publishMode, .timeout, .jsonLogs]
  | simulate => [.accounts, .transfers, .workers, .seed, .publishMode, .timeout, .jsonLogs]

/-- The settings made at one level. -/
structure Given where
  publishMode : Option PublishMode := none
  timeout : Option Nat := none
  jsonLogs : Bool := false
  input : Option String := none
  accounts : Option Nat := none
  transfers : Option Nat := none
  workers : Option Nat := none
  seed : Option Nat := none
deriving DecidableEq

/-- The settings of the environment. -/
structure Environment where
  publishMode : Option String := none
  timeout : Option String := none
deriving DecidableEq

namespace Given

def has (g : Given) : Setting → Bool
  | .publishMode => g.publishMode.isSome
  | .timeout => g.timeout.isSome
  | .jsonLogs => g.jsonLogs
  | .input => g.input.isSome
  | .accounts => g.accounts.isSome
  | .transfers => g.transfers.isSome
  | .workers => g.workers.isSome
  | .seed => g.seed.isSome

def readNumber (text : String) : Except UsageError Nat :=
  (Integer.ofDecimal text.toList).mapError fun _ => .invalidNumber

/-- Reads the value of a setting. A flag has none. -/
def enter (g : Given) : Setting → String → Except UsageError Given
  | .publishMode, text =>
      match PublishMode.ofText? text with
      | some mode => .ok { g with publishMode := some mode }
      | none => .error .invalidValue
  | .jsonLogs, _ => .ok { g with jsonLogs := true }
  | .input, text => if text.isEmpty then .error .invalidValue else .ok { g with input := some text }
  | .timeout, text => (readNumber text).map fun n => { g with timeout := some n }
  | .accounts, text => (readNumber text).map fun n => { g with accounts := some n }
  | .transfers, text => (readNumber text).map fun n => { g with transfers := some n }
  | .workers, text => (readNumber text).map fun n => { g with workers := some n }
  | .seed, text => (readNumber text).map fun n => { g with seed := some n }

/-- Makes a setting, which must not have been made at this level before. -/
def set (g : Given) (s : Setting) (text : String) : Except UsageError Given :=
  if g.has s then .error .repeatedArgument else g.enter s text

/-- Takes a setting from the environment if it was not made at this level. -/
def fillOne (g : Given) (s : Setting) : Option String → Except UsageError Given
  | some text => if g.has s then .ok g else g.enter s text
  | none => .ok g

/-- Takes from the environment what was not set at this level. -/
def fill (g : Given) (env : Environment) : Except UsageError Given := do
  let g ← g.fillOne .publishMode env.publishMode
  g.fillOne .timeout env.timeout

end Given

end Ledger.CommandLine
