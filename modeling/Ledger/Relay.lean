import Ledger.Config
import Ledger.Error
import Ledger.Event
import Ledger.Publisher

namespace Ledger

/-- Names the sender of a marker who waits until it is acknowledged. -/
abbrev Ticket := Nat

/-- What is put into the outbox of a relay. -/
inductive Outgoing where
  | event (event : Event)
  | flush (ticket : Ticket)
  | shutdown (ticket : Ticket)
deriving DecidableEq

/-- What the worker of a relay is doing: it waits for the outbox, makes an attempt to publish, waits
to try again, or is done for good. `failed` attempts have been made, and `left` more are allowed
after the one at hand or next. -/
inductive Worker where
  | idle
  | attempting (event : Event) (failed left : Nat)
  | backingOff (event : Event) (failed left : Nat)
  | stopped
deriving DecidableEq

/-- The most steps a worker can take before it turns to the outbox again. -/
def Worker.steps : Worker → Nat
  | idle => 0
  | attempting _ _ left => 2 * left + 1
  | backingOff _ _ left => 2 * left + 2
  | stopped => 0

/-- Publishes events one after the other in the background, with retries. Events that use up their
attempts become dead letters. -/
structure Relay where
  config : RelayConfig
  outbox : List Outgoing := []
  accepting : Bool := true
  worker : Worker := .idle
  deadLetters : List Event := []
  stopping : List Ticket := []
  acknowledged : List Ticket := []
deriving DecidableEq

namespace Relay

/-- Puts a message into the outbox, unless the relay has been shut down. -/
def send? (r : Relay) (m : Outgoing) : Option Relay :=
  if r.accepting then some { r with outbox := r.outbox ++ [m] } else none

/-- The worker takes the next message out of the outbox. A flush marker is acknowledged as soon as
it is reached. A shutdown closes the outbox; it is acknowledged when the outbox is empty. -/
def receive (r : Relay) : Relay :=
  match r.outbox with
  | [] =>
      if r.accepting then r
      else
        { r with
          worker := .stopped, stopping := [], acknowledged := r.acknowledged ++ r.stopping }
  | .event e :: rest =>
      { r with outbox := rest, worker := .attempting e 0 (r.config.maxAttempts - 1) }
  | .flush ticket :: rest => { r with outbox := rest, acknowledged := r.acknowledged ++ [ticket] }
  | .shutdown ticket :: rest =>
      { r with outbox := rest, accepting := false, stopping := r.stopping ++ [ticket] }

/-- The worker learns how its attempt ended. -/
def settle (r : Relay) (outcome : Except PublishError Unit) : Relay :=
  match r.worker, outcome with
  | .attempting _ _ _, .ok () => { r with worker := .idle }
  | .attempting e _ 0, .error _ => { r with worker := .idle, deadLetters := r.deadLetters ++ [e] }
  | .attempting e failed (left + 1), .error _ =>
      { r with worker := .backingOff e (failed + 1) left }
  | _, _ => r

/-- How long the worker waits before it tries again. -/
def backoff (r : Relay) : Duration :=
  match r.worker with
  | .backingOff _ failed _ => r.config.backoffAfter failed
  | _ => .zero

/-- The worker has waited long enough and tries again. -/
def wake (r : Relay) : Relay :=
  match r.worker with
  | .backingOff e failed left => { r with worker := .attempting e failed left }
  | _ => r

@[simp] theorem outbox_settle (r : Relay) (outcome : Except PublishError Unit) :
    (r.settle outcome).outbox = r.outbox := by
  unfold settle
  split <;> rfl

@[simp] theorem outbox_wake (r : Relay) : r.wake.outbox = r.outbox := by
  unfold wake
  split <;> rfl

theorem outbox_receive_of_cons {r : Relay} {m : Outgoing} {rest : List Outgoing}
    (h : r.outbox = m :: rest) : r.receive.outbox = rest := by
  unfold receive
  rw [h]
  cases m <;> rfl

theorem steps_settle_lt {r : Relay} {e : Event} {failed left : Nat}
    (h : r.worker = .attempting e failed left) (outcome : Except PublishError Unit) :
    (r.settle outcome).worker.steps < r.worker.steps := by
  unfold settle
  rw [h]
  cases outcome with
  | ok => simp [Worker.steps]
  | error cause =>
      cases left with
      | zero => simp [Worker.steps]
      | succ left =>
          simp only [Worker.steps]
          omega

theorem steps_wake_lt {r : Relay} {e : Event} {failed left : Nat}
    (h : r.worker = .backingOff e failed left) : r.wake.worker.steps < r.worker.steps := by
  unfold wake
  rw [h]
  simp [Worker.steps]

/-- Takes the dead letters away. -/
def takeDeadLetters (r : Relay) : Relay × List Event :=
  ({ r with deadLetters := [] }, r.deadLetters)

/-- Whether the worker has nothing to do. -/
def isQuiet (r : Relay) : Bool :=
  match r.worker with
  | .idle => r.outbox.isEmpty && r.accepting
  | .stopped => true
  | _ => false

/-- Lets the worker go on until the outbox is empty, the waits between attempts being passed over.
-/
def drain (r : Relay) (p : Publisher) : Relay × Publisher :=
  match _hw : r.worker with
  | .stopped => (r, p)
  | .attempting e _ _ =>
      let offered := p.publish e.message
      drain (r.settle offered.2) offered.1
  | .backingOff _ _ _ => drain r.wake p
  | .idle =>
      match _ho : r.outbox with
      | [] => (r.receive, p)
      | _ :: _ => drain r.receive p
termination_by (r.outbox.length, r.worker.steps)
decreasing_by
  · simp [Prod.lex_def, steps_settle_lt _hw]
  · simp [Prod.lex_def, steps_wake_lt _hw]
  · simp [Prod.lex_def, outbox_receive_of_cons _ho, _ho]

end Relay

end Ledger
