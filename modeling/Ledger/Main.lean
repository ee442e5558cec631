import Ledger.CommandLine.Reader
import Ledger.Replay
import Ledger.Simulation.Run

namespace Ledger

def usageText : String :=
  "Usage: ledger [OPTIONS] replay <INPUT>\n" ++
    "       ledger [OPTIONS] simulate [--accounts <COUNT>] [--transfers <COUNT>]\n" ++
    "                                 [--workers <COUNT>] [--seed <SEED>]\n\n" ++
    "Options:\n" ++
    "  --publish-mode <MODE>  'deferred' or 'inline' [env: LEDGER_PUBLISH_MODE]\n" ++
    "  --timeout-ms <MILLIS>  deadline of one call, 0 for none [env: LEDGER_TIMEOUT_MS]\n" ++
    "  --json-logs            logs as JSON lines\n" ++
    "  -h, --help             this text"

def ioReason : IO.Error → String
  | .noFileOrDirectory .. => "No such file or directory (os error 2)"
  | .permissionDenied .. => "Permission denied (os error 13)"
  | e => toString e

/-- Prints the accounts that the operations of a file lead to. -/
def runReplay (config : Config) (path : String) : IO (Except String Unit) := do
  let input ← try
      pure (Except.ok (← IO.FS.readBinFile path))
    catch e => pure (Except.error (Replay.Failure.input path (ioReason e)))
  match input with
  | .error failure => return .error failure.message
  | .ok bytes =>
      let items := Item.readAll bytes.data.toList
      let r := Replay.run config (Timestamp.epoch.ofNanosAfter ·) items
      let output ← IO.getStdout
      try
        output.write (AccountTable.write r.accounts).toByteArray
        output.flush
        return .ok ()
      catch e => return .error (Replay.Failure.output (.flush (ioReason e))).message

/-- Prints the report of a simulation. -/
def runSimulation (config : Config) (sim : Simulation) : IO (Except String Unit) := do
  let started ← IO.monoNanosNow
  match sim.run config (Timestamp.epoch.ofNanosAfter ·) (.ofSeed sim.seed) with
  | .error failure => return .error failure.message
  | .ok result =>
      let finished ← IO.monoNanosNow
      let elapsed := (Duration.ofNanos? (finished - started)).getD .zero
      IO.println (Simulation.Report.mk result elapsed).toText
      return .ok ()

/-- Carries out a command line; returns the exit code. -/
def runCommandLine (environment : CommandLine.Environment) (words : List String) : IO UInt32 := do
  match CommandLine.Arguments.read environment words with
  | .error .helpWanted =>
      IO.println usageText
      return 0
  | .error _ =>
      IO.eprintln usageText
      return 2
  | .ok arguments =>
      let outcome ← match arguments.command with
        | .replay path => runReplay arguments.config path
        | .simulate sim => runSimulation arguments.config sim
      match outcome with
      | .ok () => return 0
      | .error message =>
          IO.eprintln s!"Error: {message}"
          return 1

end Ledger

def main (words : List String) : IO UInt32 := do
  let publishMode ← IO.getEnv "LEDGER_PUBLISH_MODE"
  let timeout ← IO.getEnv "LEDGER_TIMEOUT_MS"
  Ledger.runCommandLine { publishMode, timeout } words
