import Ledger.Call.Request
import Ledger.Relay

namespace Ledger

/-- The ledger with its store and its event bus. Events are published inside the calls unless there
is a relay. -/
structure Service where
  config : Config
  store : Store := {}
  publisher : Publisher := {}
  relay : Option Relay
deriving DecidableEq

namespace Service

/-- The reason given when the relay takes no events any more. -/
def relayStopped : PublishError :=
  .unavailable "event relay is stopped"

def start (config : Config) : Service where
  config
  relay := if config.publishMode = .deferred then some { config := config.relay } else none

/-- Announces a committed change, now or through the relay. -/
def announce (s : Service) (e : Event) : Service × Except LedgerError Unit :=
  match s.relay with
  | none =>
      let (publisher, outcome) := s.publisher.publish e.message
      ({ s with publisher }, outcome.mapError (.publishFailure e.topic))
  | some relay =>
      match relay.send? (.event e) with
      | some relay => ({ s with relay := some relay }, .ok ())
      | none => (s, .error (.publishFailure e.topic relayStopped))

/-- The unit of work that a call uses when no other call is running. -/
def soleUnit : UnitId :=
  0

/-- Answers one request with no other one running, at the clock reading `now`. A change that was
committed stays so, whatever becomes of its announcement. The time budget is left out, and so is the
wait for a row: the refusal of a locked row stands for a state that no request leaves behind. -/
def call (s : Service) (now : Timestamp) (r : Request) : Service × Except LedgerError Reply :=
  match r.work s.config with
  | .error e => (s, .error e)
  | .ok work =>
      match Procedure.runAlone soleUnit now work s.store with
      | none => (s, .error (.persistence (.unavailable "row is locked")))
      | some (store, .error e) => ({ s with store := store.drop soleUnit }, .error e)
      | some (store, .ok reply) =>
          let s := { s with store := store.drop soleUnit }
          match reply.event? with
          | none => (s, .ok reply)
          | some event =>
              match s.announce event with
              | (s, .ok ()) => (s, .ok reply)
              | (s, .error e) => (s, .error e)

/-- Publishes or gives up everything that has been announced so far. -/
def flush (s : Service) : Service :=
  match s.relay with
  | none => s
  | some relay =>
      let (relay, publisher) := relay.drain s.publisher
      { s with publisher, relay := some relay }

/-- Stops the relay after everything that has been announced; it returns the events that could not
be published. -/
def shutdown (s : Service) : Service × List Event :=
  match s.relay with
  | none => (s, [])
  | some relay =>
      let (relay, publisher) := ((relay.send? (.shutdown 0)).getD relay).drain s.publisher
      ({ s with publisher, relay := some relay }, relay.deadLetters)

/-- The events the relay has given up on. -/
def deadLetters (s : Service) : List Event :=
  s.relay.elim [] (·.deadLetters)

def takeDeadLetters (s : Service) : Service × List Event :=
  ({ s with relay := s.relay.map fun r => r.takeDeadLetters.1 }, s.deadLetters)

end Service

end Ledger
