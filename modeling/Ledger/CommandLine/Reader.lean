import Ledger.CommandLine.Basic
import Ledger.Simulation.Basic

namespace Ledger.CommandLine

/-- What a word of a command line looks like. -/
inductive Token where
  /-- Two dashes: no word after them is an option. -/
  | escape
  | option (name : String) (value : Option String)
  | letter (c : Char)
  | plain (text : String)
deriving DecidableEq

/-- Two dashes and a name, with a value after an equals sign if there is one, are an option. One
dash gives a letter; a dash alone is an ordinary word. -/
def Token.ofWord (word : String) : Token :=
  match word.toList with
  | ['-', '-'] => .escape
  | '-' :: '-' :: rest =>
      match rest.span (· ≠ '=') with
      | (name, _ :: value) => .option (String.ofList name) (some (String.ofList value))
      | (name, []) => .option (String.ofList name) none
  | '-' :: c :: _ => .letter c
  | _ => .plain word

/-- The last argument read. Its value is not looked at before the next argument has come. -/
inductive Pending where
  | nothing
  | wantsValue (s : Setting)
  | value (s : Setting) (text : String)
deriving DecidableEq

/-- How far a level has been read. -/
structure Progress where
  given : Given := {}
  pending : Pending := .nothing
deriving DecidableEq

namespace Progress

/-- The settings made so far, once the last argument has been looked at. -/
def settle (p : Progress) : Except UsageError Given :=
  match p.pending with
  | .nothing => .ok p.given
  | .wantsValue _ => .error .invalidValue
  | .value s text => p.given.set s text

/-- Reads an option. -/
def option (p : Progress) (level : Level) (name : String) (value : Option String) :
    Except UsageError Progress :=
  if name = "help" then
    if value.isSome then .error .unneededValue else p.settle.bind fun _ => .error .helpWanted
  else
    match level.options.find? (·.name = name), value with
    | none, _ => .error .unknownArgument
    | some .jsonLogs, some _ => .error .unneededValue
    | some .jsonLogs, none => do return { given := ← (← p.settle).set .jsonLogs "" }
    | some s, some text => do return { given := ← (← p.settle).set s text }
    | some s, none => do return { given := ← p.settle, pending := .wantsValue s }

/-- Reads a dash and a letter; the letter `h` asks for help. -/
def letter (p : Progress) (c : Char) : Except UsageError Progress :=
  if c = 'h' then p.settle.bind fun _ => .error .helpWanted else .error .unknownArgument

/-- Whether the input has been read. -/
def hasInput (p : Progress) : Bool :=
  match p.pending with
  | .value .input _ => true
  | _ => p.given.has .input

/-- Reads a word that is neither an option nor the value of one. Only a replay takes such a word. -/
def operand (p : Progress) (level : Level) (escaped : Bool) (word : String) :
    Except UsageError Progress :=
  match level with
  | .top =>
      .error (if escaped && (Verb.ofWord? word).isSome then .unknownArgument else .unknownCommand)
  | .simulate => .error .unknownArgument
  | .replay =>
      if p.hasInput then .error .unknownArgument
      else do return { given := ← p.settle, pending := .value .input word }

/-- Reads the words of a level, at the top up to the verb. It returns the verb with the words after
it. -/
def read (p : Progress) (level : Level) :
    List String → Except UsageError (Progress × Option (Verb × List String))
  | [] => .ok (p, none)
  | word :: words =>
      match p.pending, Token.ofWord word with
      | _, .escape => do return (← words.foldlM (·.operand level true ·) p, none)
      | _, .option name value => do (← p.option level name value).read level words
      | _, .letter c => do (← p.letter c).read level words
      | .wantsValue s, .plain text => read { p with pending := .value s text } level words
      | _, .plain text =>
          match level, Verb.ofWord? text with
          | .top, some verb => .ok (p, some (verb, words))
          | _, _ => do (← p.operand level false text).read level words

end Progress

/-- Reads all words after a verb. -/
def Level.read (level : Level) (env : Environment) (words : List String) :
    Except UsageError Given := do
  let (p, _) ← Progress.read {} level words
  let given ← p.settle
  let _ ← given.fill env
  return given

/-- What is to be done. -/
inductive Command where
  | replay (input : String)
  | simulate (sim : Simulation)
deriving DecidableEq

/-- The command that the settings after a verb describe. -/
def Command.ofGiven (verb : Verb) (given : Given) : Except UsageError Command :=
  match verb with
  | .help => .error .helpWanted
  | .replay =>
      match given.input with
      | some path => .ok (.replay path)
      | none => .error .missingArgument
  | .simulate =>
      .ok (.simulate (.validated
        (given.accounts.getD Simulation.standard.accounts)
        (given.transfers.getD Simulation.standard.transfers)
        given.workers
        (given.seed.getD Simulation.standard.seed)))

structure Arguments where
  command : Command
  config : Config
  jsonLogs : Bool
deriving DecidableEq

/-- The configuration that is asked for. What is set after the verb wins over what is set before
it. -/
def configOf (outer inner : Given) : Config :=
  let standard := Config.standard
  let timeout :=
    match inner.timeout <|> outer.timeout with
    | some millis => some (.ofMillis (UInt64.ofNat millis))
    | none => standard.timeout
  .validated ((inner.publishMode <|> outer.publishMode).getD standard.publishMode) timeout
    standard.defaultPageSize standard.maxPageSize standard.relay

/-- Help may be asked for on a verb. -/
def helpOn : List String → UsageError
  | [] => .helpWanted
  | [word] => if (Verb.ofWord? word).isSome then .helpWanted else .unknownCommand
  | _ => .unknownCommand

/-- Reads a command line. The words after the verb are read to the end before the settings in front
of it are completed from the environment. -/
def Arguments.read (env : Environment) (words : List String) : Except UsageError Arguments := do
  match ← Progress.read {} .top words with
  | (p, none) =>
      let outer ← (← p.settle).fill env
      .error (if outer = {} then .nothingGiven else .noCommand)
  | (_, some (.help, words)) => .error (helpOn words)
  | (p, some (.replay, words)) => complete p .replay (← Level.replay.read env words)
  | (p, some (.simulate, words)) => complete p .simulate (← Level.simulate.read env words)
where
  complete (p : Progress) (verb : Verb) (inner : Given) : Except UsageError Arguments := do
    let command ← Command.ofGiven verb inner
    let outer ← (← p.settle).fill env
    return { command, config := configOf outer inner, jsonLogs := inner.jsonLogs || outer.jsonLogs }

end Ledger.CommandLine
