import Ledger.Scenario.Scene

namespace Ledger.Scenario

/-- What a step of a scenario answers. -/
inductive Outcome where
  | done
  | reply (result : Except LedgerError Reply)
  | failed (e : StoreError)
  | account (row : Account)
  | accounts (rows : List Account)
  | transaction (entry : Transaction)
  | transactions (entries : List Transaction)
  | committed (written : Committed)
  | events (events : List Event)
  | messages (messages : List Message)
  | attempts (attempts : List Attempt)
  | tally (counts : List (String × Nat))
  | stopped
  | blocked
  | unknown (field : String)

/-- The time budget of a ledger call. -/
structure Deadline where
  expiresAt : Nat
  limit : Nat

inductive Task.Stage where
  | plain (activity : Activity Outcome)
  | working (activity : Activity (Except LedgerError Reply))
  | announcing (reply : Reply) (topic : String) (activity : Activity (Except PublishError Unit))
  | finished (outcome : Outcome)

/-- An activity on its way, with the unit of work that is its own. -/
structure Task where
  config : Config
  unit : UnitId
  deadline : Option Deadline
  stage : Task.Stage

namespace Task

def outcome? (t : Task) : Option Outcome :=
  match t.stage with
  | .finished outcome => some outcome
  | _ => none

def finish (t : Task) (outcome : Outcome) : Task :=
  { t with stage := .finished outcome }

/-- The limit that has run out, if one has. -/
def expired? (t : Task) (now : Nat) : Option Nat :=
  t.deadline.bind fun d => if d.expiresAt ≤ now then some d.limit else none

/-- The next time at which something may happen to a waiting task. -/
def due (t : Task) : List Nat :=
  let deadline := t.deadline.toList.map (·.expiresAt)
  match t.stage with
  | .plain activity => activity.due?.toList
  | .working activity => activity.due?.toList ++ deadline
  | .announcing _ _ activity => activity.due?.toList ++ deadline
  | .finished _ => []

/-- Whether a task can go on now. -/
def isReady (t : Task) (s : Scene) : Bool :=
  match t.stage with
  | .plain activity => s.isReady activity
  | .working activity => s.isReady activity
  | .announcing _ _ activity => s.isReady activity
  | .finished _ => false

/-- Lets an announcement go on. A change that could not be announced in time is committed all the
same. -/
def pollAnnouncing (t : Task) (s : Scene) (reply : Reply) (topic : String)
    (activity : Activity (Except PublishError Unit)) : Scene × Task :=
  match s.run activity with
  | (s, .done (.ok ())) => (s, t.finish (.reply (.ok reply)))
  | (s, .done (.error e)) => (s, t.finish (.reply (.error (.publishFailure topic e))))
  | (s, activity) =>
      match t.expired? s.now with
      | some limit =>
          (s, t.finish (.reply (.error (.publishFailure topic (.timeout limit)))))
      | none => (s, { t with stage := .announcing reply topic activity })

/-- Lets the store work of a call go on. Its unit of work is dropped when it ends, and also when its
time runs out while it waits. -/
def pollWorking (t : Task) (s : Scene) (activity : Activity (Except LedgerError Reply)) :
    Scene × Task :=
  match s.run activity with
  | (s, .done (.ok reply)) =>
      let s := { s with store := s.store.drop t.unit }
      match reply.event? with
      | none => (s, t.finish (.reply (.ok reply)))
      | some e => t.pollAnnouncing s reply e.topic (Activity.announce t.config e)
  | (s, .done (.error e)) =>
      ({ s with store := s.store.drop t.unit }, t.finish (.reply (.error e)))
  | (s, activity) =>
      match t.expired? s.now with
      | some limit =>
          ({ s with store := s.store.drop t.unit },
            t.finish (.reply (.error (.persistence (.timeout limit)))))
      | none => (s, { t with stage := .working activity })

/-- Lets a task go on until it is finished or has to wait. -/
def poll (t : Task) (s : Scene) : Scene × Task :=
  match t.stage with
  | .plain activity =>
      match s.run activity with
      | (s, .done outcome) => (s, t.finish outcome)
      | (s, activity) => (s, { t with stage := .plain activity })
  | .working activity => t.pollWorking s activity
  | .announcing reply topic activity => t.pollAnnouncing s reply topic activity
  | .finished _ => (s, t)

/-- Abandons a task: the unit of work of a ledger call goes with it. -/
def abandon (t : Task) (s : Scene) : Scene :=
  match t.stage with
  | .working _ => { s with store := s.store.drop t.unit }
  | _ => s

/-- Starts a ledger call; a request that fails the checks of its arguments is finished at once. -/
def ofRequest (config : Config) (s : Scene) (r : Request) : Scene × Task :=
  let deadline := config.timeout.map fun d => ⟨s.now + d.millis, d.millis⟩
  let stage :=
    match r.work config with
    | .ok work => .working (Activity.ofWork s.nextUnit work)
    | .error e => .finished (.reply (.error e))
  ({ s with nextUnit := s.nextUnit + 1 }, { config, unit := s.nextUnit, deadline, stage })

/-- Starts an activity that is not a ledger call, on a unit of work of somebody else's. -/
def ofActivity (config : Config) (unit : UnitId) (activity : Activity Outcome) : Task where
  config
  unit
  deadline := none
  stage := .plain activity

end Task

namespace Scene

/-- Lets every task go on in turn. -/
def pollAll (s : Scene) : List Task → Scene × List Task
  | [] => (s, [])
  | t :: rest =>
      let (s, t) := t.poll s
      let (s, rest) := s.pollAll rest
      (s, t :: rest)

/-- The first time after now at which a task or the relay may go on. -/
def nextTime? (s : Scene) (tasks : List Task) : Option Nat :=
  ((s.relayDue.toList ++ tasks.flatMap Task.due).filter (s.now < ·)).min?

/-- Lets tasks and relay go on, and time pass where all of them wait, until every task is finished
or the time is `horizon`. Where several could go on, tasks come before the relay. -/
def settle (horizon : Nat) : (fuel : Nat) → Scene → List Task → Scene × List Task
  | 0, s, tasks => (s, tasks)
  | fuel + 1, s, tasks =>
      let (s, tasks) := s.pollAll tasks
      if tasks.all (·.outcome?.isSome) then (s, tasks)
      else if tasks.any (·.isReady s) then settle horizon fuel s tasks
      else if horizon ≤ s.now then (s, tasks)
      else
        let s := s.advanceRelay
        if tasks.any (·.isReady s) then settle horizon fuel s tasks
        else
          settle horizon fuel
            { s with now := min ((s.nextTime? tasks).getD horizon) horizon } tasks

/-- The longest a step may wait, in milliseconds. -/
def patience : Nat :=
  60000

/-- Runs tasks side by side. If one of them still waits when patience is over, all are abandoned. -/
def complete (s : Scene) (tasks : List Task) : Scene × Option (List Outcome) :=
  let (s, tasks) := s.settle (s.now + patience) (2 * patience + 100 * (tasks.length + 1)) tasks
  match tasks.mapM (·.outcome?) with
  | some outcomes => (s, some outcomes)
  | none => (tasks.foldl (fun s t => t.abandon s) s, none)

end Scene

end Ledger.Scenario
