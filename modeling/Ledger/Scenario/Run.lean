import Ledger.Scenario.Task

namespace Ledger.Scenario

/-- A bound on the time of a transaction: a given time, or the time of a given entry. -/
inductive TimeBound where
  | time (t : Timestamp)
  | entry (id : TransactionId)
deriving DecidableEq

/-- A filter with bounds that may refer to entries of the log. -/
structure Search where
  filter : Filter
  since : Option TimeBound
  till : Option TimeBound
deriving DecidableEq

/-- A ledger call of a scenario. -/
inductive Act where
  | request (r : Request)
  | search (s : Search)
deriving DecidableEq

/-- Settings of the scripted bus; what is left out stays as it is. -/
structure BusSettings where
  online : Option Bool := none
  failNext : Option Nat := none
  delay : Option Nat := none
  rejection : Option (PublishError × Nat) := none

/-- A call on a unit of work that the scenario holds by a name. -/
inductive UnitStep where
  | lock (id : AccountId)
  | save (id : AccountId) (change : RowChange)
  | append (new : NewTransaction)
  | commit
  | rollback
deriving DecidableEq

inductive Step where
  | act (a : Act)
  | concurrent (acts : List Act)
  | flush
  | deadLetters
  | takeDeadLetters
  | shutdown
  | sleep (millis : Nat)
  | bus (settings : BusSettings)
  | published (topic : Option String)
  | subscribe (name : String)
  | received (name : String)
  | unsubscribe (name : String)
  | attempts
  | fault (p : Point) (fault : Fault)
  | clearFaults
  | storeCall (c : StoreCall)
  | storeAll
  | storeSave (id : AccountId) (change : RowChange)
  | storeSearch (s : Search)
  | begin (name : String)
  | unit (name : String) (step : UnitStep)
  | drop (name : String)

/-- What holds the relay: the service, which goes with it when it is shut down, or the scenario
itself, whose ledger then goes on without a relay. -/
inductive Wiring where
  | service
  | parts
deriving DecidableEq

/-- A scenario on its way. -/
structure Stage where
  config : Config
  wiring : Wiring
  scene : Scene
  units : List (String × UnitId) := []
  shutDown : Bool := false

namespace Stage

/-- A fixed day on which all scenarios take place. -/
def today : Timestamp :=
  ⟨2026, 1, 1, 0, 0, 0, 0⟩

def start (config : Config) (wiring : Wiring) : Stage where
  config
  wiring
  scene :=
    { today
      relay :=
        if config.publishMode = .deferred then some { config := config.relay } else none }

/-- Whether the service is gone. -/
def isStopped (s : Stage) : Bool :=
  s.shutDown && s.wiring = .service

/-- Whether there is a relay that can still be asked for something. -/
def hasRelay (s : Stage) : Bool :=
  s.scene.relay.isSome && !s.shutDown

def resolveBound (s : Stage) : Option TimeBound → Except StoreError (Option Timestamp)
  | none => .ok none
  | some (.time t) => .ok (some t)
  | some (.entry id) => (s.scene.store.tables.transaction id).map fun entry => some entry.createdAt

def resolveSearch (s : Stage) (search : Search) : Except StoreError Filter :=
  (s.resolveBound search.since).bind fun since =>
    (s.resolveBound search.till).map fun till => { search.filter with since, till }

def resolve (s : Stage) : Act → Except StoreError Request
  | .request r => .ok r
  | .search search => (s.resolveSearch search).map .transactions

/-- Runs one task to its end. -/
def complete (s : Stage) (scene : Scene) (task : Task) : Stage × Outcome :=
  match scene.complete [task] with
  | (scene, some [outcome]) => ({ s with scene }, outcome)
  | (scene, _) => ({ s with scene }, .blocked)

/-- Runs an activity that is no ledger call, on a given unit of work. -/
def perform (s : Stage) (unit : UnitId) (activity : Activity Outcome) : Stage × Outcome :=
  s.complete s.scene (.ofActivity s.config unit activity)

/-- Turns the answer of a store call into an outcome. -/
def outcomeOf : (c : StoreCall) → c.Answer → Outcome
  | _, .error e => .failed e
  | .ownedAccount .., .ok row => .account row
  | .account _, .ok row => .account row
  | .accountsOf _, .ok rows => .accounts rows
  | .insertAccount _, .ok row => .account row
  | .saveAccount _, .ok () => .done
  | .insertTransaction _, .ok entry => .transaction entry
  | .query _, .ok entries => .transactions entries
  | .transaction _, .ok entry => .transaction entry
  | .begin, .ok () => .done
  | .lock _, .ok row => .account row
  | .save _, .ok () => .done
  | .append _, .ok () => .done
  | .commit, .ok committed => .committed committed
  | .rollback, .ok () => .done

/-- Makes a store call directly, past the faults. -/
def storeCall (s : Stage) (unit : UnitId) (c : StoreCall) : Stage × Outcome :=
  s.perform unit (.call (.store unit c) fun answer => .done (outcomeOf c answer))

/-- The committed row of an account, or a row that stands in for one that does not exist. -/
def committedRow (s : Stage) (id : AccountId) : Account :=
  (s.scene.store.tables.find? id).getD
    { id
      user := 1
      product := "ghost"
      currency := "USD"
      balance := .zero (Currency.minorUnits "USD")
      status := .active
      version := 0
      createdAt := .epoch
      updatedAt := .epoch }

/-- What the answer to a ledger call counts as. -/
def tallyKey : Outcome → String
  | .reply (.error e) => e.kind.name
  | .failed _ => "store_error"
  | _ => "ok"

def count (key : String) : List (String × Nat) → List (String × Nat)
  | [] => [(key, 1)]
  | (other, n) :: rest =>
      if other = key then (other, n + 1) :: rest else (other, n) :: count key rest

def tally (keys : List String) : List (String × Nat) :=
  keys.foldl (fun counts key => count key counts) []

/-- Starts ledger calls at the same moment. -/
def launch (config : Config) : Scene → List Request → Scene × List Task
  | scene, [] => (scene, [])
  | scene, r :: rest =>
      let (scene, task) := Task.ofRequest config scene r
      let (scene, tasks) := launch config scene rest
      (scene, task :: tasks)

def act (s : Stage) (a : Act) : Stage × Outcome :=
  if s.isStopped then (s, .stopped)
  else
    match s.resolve a with
    | .error e => (s, .failed e)
    | .ok r =>
        let (scene, task) := Task.ofRequest s.config s.scene r
        s.complete scene task

def concurrent (s : Stage) (acts : List Act) : Stage × Outcome :=
  if s.isStopped then (s, .tally (tally (acts.map fun _ => "Stopped")))
  else
    match acts.mapM s.resolve with
    | .error e => (s, .failed e)
    | .ok requests =>
        let (scene, tasks) := launch s.config s.scene requests
        match scene.complete tasks with
        | (scene, some outcomes) => ({ s with scene }, .tally (tally (outcomes.map tallyKey)))
        | (scene, none) => ({ s with scene }, .blocked)

/-- Puts a marker into the outbox, waits until it is acknowledged, and goes on. -/
def awaitMarker (s : Stage) (marker : Ticket → Outgoing) (next : Activity Outcome) :
    Stage × Outcome :=
  s.perform s.scene.nextUnit
    (.call (.mark marker) fun
      | some ticket => .call (.waitFor ticket) fun _ => next
      | none => next)

def shutdown (s : Stage) : Stage × Outcome :=
  if s.isStopped then (s, .stopped)
  else if s.hasRelay then
    { s with shutDown := true }.awaitMarker .shutdown
      (.call .deadLetters fun events => .done (.events events))
  else ({ s with shutDown := true }, .events [])

def setBus (s : Stage) (settings : BusSettings) : Stage :=
  let bus := s.scene.bus
  let publisher := settings.online.elim bus.publisher bus.publisher.setOnline
  let publisher := settings.failNext.elim publisher publisher.failNext
  let bus :=
    { bus with
      publisher
      delay := settings.delay.getD bus.delay
      rejection := settings.rejection <|> bus.rejection }
  { s with scene := { s.scene with bus } }

def setPublisher (s : Stage) (f : Publisher → Publisher) : Stage :=
  { s with
    scene := { s.scene with bus := { s.scene.bus with publisher := f s.scene.bus.publisher } } }

def setFaults (s : Stage) (f : Faults → Faults) : Stage :=
  { s with scene := { s.scene with faults := f s.scene.faults } }

def deadLetters (s : Stage) : List Event :=
  if s.hasRelay then s.scene.relay.elim [] (·.deadLetters) else []

/-- Begins a unit of work under a name; one that had the name before is dropped. -/
def begin (s : Stage) (name : String) : Stage × Outcome :=
  let unit := s.scene.nextUnit
  let (s, outcome) :=
    { s with scene := { s.scene with nextUnit := unit + 1 } }.storeCall unit .begin
  let store := (s.units.lookup name).elim s.scene.store s.scene.store.drop
  ({ s with
      scene := { s.scene with store }
      units := (name, unit) :: s.units.filter (·.1 ≠ name) },
    outcome)

def unitStep (s : Stage) (unit : UnitId) : UnitStep → Stage × Outcome
  | .lock id => s.storeCall unit (.lock id)
  | .save id change => s.storeCall unit (.save (change.apply (s.committedRow id)))
  | .append new => s.storeCall unit (.append new)
  | .commit => s.storeCall unit .commit
  | .rollback => s.storeCall unit .rollback

def drop (s : Stage) (name : String) : Stage :=
  { s with
    scene :=
      { s.scene with store := (s.units.lookup name).elim s.scene.store s.scene.store.drop }
    units := s.units.filter (·.1 ≠ name) }

/-- Takes one step of a scenario. -/
def step (s : Stage) : Step → Stage × Outcome
  | .act a => s.act a
  | .concurrent acts => s.concurrent acts
  | .flush => if s.hasRelay then s.awaitMarker .flush (.done .done) else (s, .done)
  | .deadLetters => (s, .events s.deadLetters)
  | .takeDeadLetters =>
      if s.hasRelay then
        ({ s with
            scene := { s.scene with relay := s.scene.relay.map fun r => r.takeDeadLetters.1 } },
          .events s.deadLetters)
      else (s, .events [])
  | .shutdown => s.shutdown
  | .sleep millis => s.perform s.scene.nextUnit (Activity.pause millis (.done .done))
  | .bus settings => (s.setBus settings, .done)
  | .published none => (s, .messages s.scene.bus.publisher.published)
  | .published (some topic) => (s, .messages (s.scene.bus.publisher.publishedOn topic))
  | .subscribe name => (s.setPublisher (·.subscribe name), .done)
  | .received name =>
      match s.scene.bus.publisher.inbox? name with
      | some messages => (s.setPublisher (·.take name), .messages messages)
      | none => (s, .unknown "name")
  | .unsubscribe name => (s.setPublisher (·.unsubscribe name), .done)
  | .attempts =>
      ({ s with scene := { s.scene with bus := { s.scene.bus with attempts := [] } } },
        .attempts s.scene.bus.attempts)
  | .fault p fault => (s.setFaults (·.arm p fault), .done)
  | .clearFaults => (s.setFaults fun _ => [], .done)
  | .storeCall c => s.storeCall s.scene.nextUnit c
  | .storeAll => (s, .accounts s.scene.store.tables.accounts)
  | .storeSave id change =>
      s.storeCall s.scene.nextUnit (.saveAccount (change.apply (s.committedRow id)))
  | .storeSearch search =>
      match s.resolveSearch search with
      | .ok filter => s.storeCall s.scene.nextUnit (.query filter)
      | .error e => (s, .failed e)
  | .begin name => s.begin name
  | .unit name unitStep =>
      match s.units.lookup name with
      | some unit => s.unitStep unit unitStep
      | none => (s, .unknown "unit")
  | .drop name => (s.drop name, .done)

/-- What can be seen of the store: the length of the log, and of each account its id, balance,
status and version. -/
abbrev Snapshot := Nat × List (AccountId × Decimal × AccountStatus × Nat)

def snapshot (s : Stage) : Snapshot :=
  (s.scene.store.tables.log.length,
    s.scene.store.tables.accounts.map fun a => (a.id, a.balance, a.status, a.version))

end Stage

/-- The answer to a step, with the time after it, and what can be seen of the store if that has
changed. -/
structure Answer where
  outcome : Outcome
  time : Nat
  snapshot : Option Stage.Snapshot

/-- Takes the steps in turn; `seen` is the last snapshot that was shown. -/
def runFrom (s : Stage) (seen : Option Stage.Snapshot) : List Step → List Answer
  | [] => []
  | step :: rest =>
      let (s, outcome) := s.step step
      let snapshot := if seen = some s.snapshot then none else some s.snapshot
      ⟨outcome, s.scene.now, snapshot⟩ :: runFrom s (some s.snapshot) rest

/-- Plays a scenario from an empty store. -/
def run (config : Config) (wiring : Wiring) (steps : List Step) : List Answer :=
  runFrom (Stage.start config wiring) none steps

end Ledger.Scenario
