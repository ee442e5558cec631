import Ledger.Scenario.Bus
import Ledger.Scenario.Fault
import Ledger.Service

namespace Ledger.Scenario

/-- The ledger's surroundings at one moment. Time is counted in milliseconds; the store's clock
counts its readings. -/
structure Scene where
  today : Timestamp
  now : Nat := 0
  readings : Nat := 0
  store : Store := {}
  nextUnit : UnitId := 0
  faults : Faults := []
  bus : Bus := {}
  relay : Option Relay
  relayDue : Option Nat := none
  nextTicket : Ticket := 0

/-- The steps that activities are made of. -/
inductive Effect where
  | store (unit : UnitId) (c : StoreCall)
  | trip (p : Point)
  | time
  | waitUntil (time : Nat)
  | busDelay
  | offer (m : Message)
  | enqueue (e : Event)
  | mark (marker : Ticket → Outgoing)
  | waitFor (ticket : Ticket)
  | deadLetters

abbrev Effect.Answer : Effect → Type
  | store _ c => c.Answer
  | trip _ => Option FaultAction
  | time | busDelay => Nat
  | waitUntil _ | waitFor _ => Unit
  | offer _ => Except PublishError Unit
  | enqueue _ => Bool
  | mark _ => Option Ticket
  | deadLetters => List Event

/-- A course of effects. -/
abbrev Activity (α : Type) : Type :=
  Program Effect Effect.Answer α

namespace Scene

/-- The next reading of the store's clock; later readings are later times. -/
def clock (s : Scene) : Timestamp :=
  s.today.ofNanosAfter s.readings

/-- Takes one step, or none while it has to wait. -/
def perform (s : Scene) : (e : Effect) → Option (Scene × e.Answer)
  | .store unit c =>
      match s.store.perform unit s.clock c with
      | some (store, answer) => some ({ s with store, readings := s.readings + 1 }, answer)
      | none => none
  | .trip p =>
      let (faults, action) := s.faults.trip p
      some ({ s with faults }, action)
  | .time => some (s, s.now)
  | .waitUntil time => if s.now < time then none else some (s, ())
  | .busDelay => some (s, s.bus.delay)
  | .offer m =>
      let (bus, outcome) := s.bus.offer s.now m
      some ({ s with bus }, outcome)
  | .enqueue e =>
      match s.relay.bind (·.send? (.event e)) with
      | some relay => some ({ s with relay := some relay }, true)
      | none => some (s, false)
  | .mark marker =>
      match s.relay.bind (·.send? (marker s.nextTicket)) with
      | some relay =>
          some ({ s with relay := some relay, nextTicket := s.nextTicket + 1 }, some s.nextTicket)
      | none => some (s, none)
  | .waitFor ticket =>
      if s.relay.all (·.acknowledged.contains ticket) then some (s, ()) else none
  | .deadLetters => some (s, s.relay.elim [] (·.deadLetters))

/-- Lets an activity go on until it is done or has to wait. -/
def run {α : Type} (s : Scene) : Activity α → Scene × Activity α
  | .done a => (s, .done a)
  | .call e next =>
      match s.perform e with
      | some (s, answer) => s.run (next answer)
      | none => (s, .call e next)

/-- Whether an activity is done or can take its next step. -/
def isReady {α : Type} (s : Scene) : Activity α → Bool
  | .done _ => true
  | .call e _ => (s.perform e).isSome

def advanceRelay (s : Scene) : Scene :=
  match s.relay with
  | none => s
  | some relay =>
      let (relay, relayDue, bus) := s.bus.advance s.now relay s.relayDue
      { s with relay := some relay, relayDue, bus }

end Scene

namespace Activity

variable {α : Type}

/-- The time an activity waits for, if it waits for time to pass. -/
def due? : Activity α → Option Nat
  | .call (.waitUntil time) _ => some time
  | _ => none

/-- Lets `millis` milliseconds pass. -/
def pause (millis : Nat) (next : Activity α) : Activity α :=
  .call .time fun now => .call (.waitUntil (now + millis)) fun _ => next

/-- Makes a store call that passes its point. -/
def passing (unit : UnitId) (c : StoreCall) : Activity c.Answer :=
  let make : Activity c.Answer := .call (.store unit c) .done
  match Point.of? c with
  | none => make
  | some p =>
      .call (.trip p) fun
        | none => make
        | some (.fail e) => .done (.error e)
        | some (.failAfter e) => make.bind fun _ => .done (.error e)
        | some (.delay millis) => pause millis make
        | some (.lose part) => make.bind fun answer => .done (part.from c answer)
        | some (.alter id change) =>
            .call (.store unit (.account id)) fun
              | .error e => .done (.error e)
              | .ok row =>
                  .call (.store unit (.saveAccount (change.apply row))) fun
                    | .error e => .done (.error e)
                    | .ok () => make

/-- The store work of a ledger call, made through the faults. -/
def ofWork (unit : UnitId) (work : Work α) : Activity (Except LedgerError α) :=
  work.expand (passing unit)

/-- Publishes a message, which takes as long as the bus takes. -/
def publish (m : Message) : Activity (Except PublishError Unit) :=
  .call .busDelay fun millis => pause millis (.call (.offer m) .done)

/-- Announces a committed change as the configuration says. -/
def announce (config : Config) (e : Event) : Activity (Except PublishError Unit) :=
  match config.publishMode with
  | .inline => publish e.message
  | .deferred =>
      .call (.enqueue e) fun sent =>
        .done (if sent then .ok () else .error Service.relayStopped)

end Activity

end Ledger.Scenario
