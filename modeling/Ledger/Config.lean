import Ledger.Duration

namespace Ledger

/-- When an event is published: inside the call that caused it, or later by the relay. -/
inductive PublishMode where
  | deferred
  | inline
deriving DecidableEq

namespace PublishMode

def toText : PublishMode → String
  | deferred => "deferred"
  | inline => "inline"

def ofText? (s : String) : Option PublishMode :=
  [deferred, inline].find? fun mode => mode.toText = s

end PublishMode

/-- How the relay retries a publish that failed. -/
@[ext]
structure RelayConfig where
  maxAttempts : Nat
  initialBackoff : Duration
  maxBackoff : Duration
deriving DecidableEq

namespace RelayConfig

def standard : RelayConfig :=
  ⟨5, .ofMillis 50, .ofMillis 2000⟩

/-- Zero attempts become the standard number, and the largest backoff is at least the first. -/
def validated (maxAttempts : Nat) (initialBackoff maxBackoff : Duration) : RelayConfig where
  maxAttempts := if maxAttempts = 0 then standard.maxAttempts else maxAttempts
  initialBackoff := initialBackoff
  maxBackoff := if maxBackoff < initialBackoff then initialBackoff else maxBackoff

/-- The wait after the given failed attempt: the first one doubled each time, as far as a factor of
32 bits goes, and never above the largest. -/
def backoffAfter (c : RelayConfig) (attempt : Nat) : Duration :=
  match c.initialBackoff.times? (min (Nat.pow 2 (min (attempt - 1) 32)) (Nat.pow 2 32 - 1)) with
  | some delay => min delay c.maxBackoff
  | none => c.maxBackoff

end RelayConfig

@[ext]
structure Config where
  publishMode : PublishMode
  /-- The time budget of one ledger call. However long it is, its end is taken to be a time that the
  clock can tell. -/
  timeout : Option Duration
  /-- The page size of a query that asks for a limit of zero. -/
  defaultPageSize : Nat
  maxPageSize : Nat
  relay : RelayConfig
deriving DecidableEq

namespace Config

def standard : Config :=
  ⟨.deferred, some (.ofMillis 5000), 20, 100, .standard⟩

/-- A timeout of zero is no timeout, page sizes of zero become the standard ones, and the default
page is never larger than the largest. -/
def validated (publishMode : PublishMode) (timeout : Option Duration)
    (defaultPageSize maxPageSize : Nat) (relay : RelayConfig) : Config :=
  let maxPageSize := if maxPageSize = 0 then standard.maxPageSize else maxPageSize
  { publishMode
    timeout := timeout.filter (· ≠ .zero)
    defaultPageSize :=
      if defaultPageSize = 0 then min standard.defaultPageSize maxPageSize
      else min defaultPageSize maxPageSize
    maxPageSize
    relay }

/-- The page size that a query with the given limit gets. -/
def pageLimit (c : Config) (requested : Nat) : Nat :=
  if requested = 0 then c.defaultPageSize else min requested c.maxPageSize

end Config

end Ledger
