import Ledger.Relay

namespace Ledger.Scenario

/-- A publish that was made, with its outcome. -/
structure Attempt where
  time : Nat
  topic : String
  key : String
  outcome : Except PublishError Unit

/-- An event bus with a script: every publish takes `delay` milliseconds, and the next ones may be
refused before the publisher hears of them. -/
structure Bus where
  publisher : Publisher := {}
  delay : Nat := 0
  rejection : Option (PublishError × Nat) := none
  attempts : List Attempt := []

namespace Bus

/-- The outcome of a publish whose delay is over. -/
def decide (b : Bus) (m : Message) : Bus × Except PublishError Unit :=
  match b.rejection with
  | some (e, times + 1) => ({ b with rejection := some (e, times) }, .error e)
  | _ =>
      let (publisher, outcome) := b.publisher.publish m
      ({ b with publisher }, outcome)

def offer (b : Bus) (now : Nat) (m : Message) : Bus × Except PublishError Unit :=
  let (b, outcome) := b.decide m
  ({ b with attempts := b.attempts ++ [⟨now, m.topic, m.key, outcome⟩] }, outcome)

/-- Lets the worker of a relay go on until it has to wait; the time it waits for is returned. -/
def advance (now : Nat) (r : Relay) (due : Option Nat) (b : Bus) : Relay × Option Nat × Bus :=
  match _hw : r.worker with
  | .stopped => (r, none, b)
  | .attempting e _ _ =>
      let time := due.getD (now + b.delay)
      if now < time then (r, some time, b)
      else
        let offered := b.offer now e.message
        advance now (r.settle offered.2) none offered.1
  | .backingOff _ _ _ =>
      let time := due.getD (now + r.backoff.millis)
      if now < time then (r, some time, b) else advance now r.wake none b
  | .idle =>
      match _ho : r.outbox with
      | [] => (r.receive, none, b)
      | _ :: _ => advance now r.receive none b
termination_by (r.outbox.length, r.worker.steps)
decreasing_by
  · simp [Prod.lex_def, Relay.steps_settle_lt _hw]
  · simp [Prod.lex_def, Relay.steps_wake_lt _hw]
  · simp [Prod.lex_def, Relay.outbox_receive_of_cons _ho, _ho]

end Bus

end Ledger.Scenario
