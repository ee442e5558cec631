import Ledger.Proofs.Relay.Pending
import Ledger.Service

namespace Ledger

/-- A call of the bus, with its answer. -/
abbrev Offer := Event × Except PublishError Unit

/-- What has become of an event: the attempts that failed, and whether one more succeeded. -/
structure Delivery where
  event : Event
  failures : List PublishError
  published : Bool

namespace Delivery

/-- The calls of the bus for one event that were refused. -/
def refusals (e : Event) (failures : List PublishError) : List Offer :=
  failures.map fun cause => (e, .error cause)

/-- The calls of the bus for one event. -/
def offers (d : Delivery) : List Offer :=
  refusals d.event d.failures ++ if d.published then [(d.event, .ok ())] else []

/-- An event is published at one of its attempts, or uses them all up. -/
def Complete (attempts : Nat) (d : Delivery) : Prop :=
  if d.published then d.failures.length < attempts else d.failures.length = attempts

/-- The events that used up their attempts. -/
def exhausted (ds : List Delivery) : List Event :=
  (ds.filter fun d => !d.published).map (·.event)

end Delivery

namespace Relay

/-- What can happen to a relay: somebody sends an event or a marker, the worker takes a step, the
dead letters are read or taken away, or the call that shuts the relay down returns. -/
inductive Move where
  | notify (e : Event)
  | flush
  | shutdown
  | receive
  | attempt (outcome : Except PublishError Unit)
  | wake
  | deadLetters
  | takeDeadLetters
  | leave

/-- Whether a move is the worker's. -/
def Move.isWork : Move → Bool
  | receive | attempt _ | wake => true
  | _ => false

/-- A relay with what has been seen of it: the messages it has accepted, the calls it has made of
the bus, those that failed for the event in hand, what has become of the events before, the dead
letters that were taken away, and those that came with its end. -/
structure Session where
  relay : Relay
  sent : List Outgoing := []
  offers : List Offer := []
  failures : List PublishError := []
  handled : List Delivery := []
  taken : List (List Event) := []
  returned : Option (List Event) := none

namespace Session

def start (config : RelayConfig) : Session where
  relay := { config }

/-- Sends a message, which a closed outbox refuses. -/
def post (s : Session) (m : Outgoing) : Session :=
  match s.relay.send? m with
  | some relay => { s with relay, sent := s.sent ++ [m] }
  | none => s

/-- The worker learns how its attempt for an event ended; one that leaves it idle was the last. -/
def learn (s : Session) (e : Event) (outcome : Except PublishError Unit) : Session :=
  let relay := s.relay.settle outcome
  let offers := s.offers ++ [(e, outcome)]
  match outcome with
  | .ok () =>
      { s with relay, offers, failures := [], handled := s.handled ++ [⟨e, s.failures, true⟩] }
  | .error cause =>
      if relay.worker = .idle then
        { s with
          relay, offers, failures := [],
          handled := s.handled ++ [⟨e, s.failures ++ [cause], false⟩] }
      else { s with relay, offers, failures := s.failures ++ [cause] }

/-- One move, if it is possible. A marker carries its place among all messages as its ticket. The
call that shuts the relay down waits for the worker to end, and then nobody has the relay any
more. -/
def step (s : Session) : Move → Option Session
  | .notify e => some (s.post (.event e))
  | .flush => some (s.post (.flush s.sent.length))
  | .shutdown => some (s.post (.shutdown s.sent.length))
  | .receive => if s.relay.worker = .idle then some { s with relay := s.relay.receive } else none
  | .attempt outcome =>
      match s.relay.worker with
      | .attempting e _ _ => some (s.learn e outcome)
      | _ => none
  | .wake =>
      match s.relay.worker with
      | .backingOff .. => some { s with relay := s.relay.wake }
      | _ => none
  | .deadLetters => if s.returned = none then some s else none
  | .takeDeadLetters =>
      if s.returned = none then
        some { s with
          relay := s.relay.takeDeadLetters.1, taken := s.taken ++ [s.relay.takeDeadLetters.2] }
      else none
  | .leave =>
      if s.relay.worker = .stopped ∧ s.returned = none then
        some { s with returned := some s.relay.deadLetters }
      else none

/-- Makes moves in the given order. -/
def run : Session → List Move → Option Session
  | s, [] => some s
  | s, m :: rest => (s.step m).bind fun s' => s'.run rest

/-- What a move does, and when it is possible. -/
inductive Moves (s : Session) : Move → Session → Prop
  | notify (e : Event) : Moves s (.notify e) (s.post (.event e))
  | flush : Moves s .flush (s.post (.flush s.sent.length))
  | shutdown : Moves s .shutdown (s.post (.shutdown s.sent.length))
  | receive (idle : s.relay.worker = .idle) : Moves s .receive { s with relay := s.relay.receive }
  | attempt {e : Event} {failed left : Nat} (outcome : Except PublishError Unit)
      (worker : s.relay.worker = .attempting e failed left) :
      Moves s (.attempt outcome) (s.learn e outcome)
  | wake {e : Event} {failed left : Nat} (worker : s.relay.worker = .backingOff e failed left) :
      Moves s .wake { s with relay := s.relay.wake }
  | deadLetters (present : s.returned = none) : Moves s .deadLetters s
  | takeDeadLetters (present : s.returned = none) :
      Moves s .takeDeadLetters
        { s with
          relay := s.relay.takeDeadLetters.1, taken := s.taken ++ [s.relay.takeDeadLetters.2] }
  | leave (stopped : s.relay.worker = .stopped) (present : s.returned = none) :
      Moves s .leave { s with returned := some s.relay.deadLetters }

/-- The events that were accepted. -/
def events (s : Session) : List Event :=
  s.sent.filterMap Outgoing.event?

/-- The messages that the worker has turned to. -/
def received (s : Session) : List Outgoing :=
  s.sent.take (s.sent.length - s.relay.outbox.length)

variable {s s' : Session} {m : Outgoing} {e : Event} {failed left : Nat}

theorem run_cons {m : Move} {rest : List Move} (h : s.run (m :: rest) = some s') :
    ∃ s₁, s.step m = some s₁ ∧ s₁.run rest = some s' :=
  Option.bind_eq_some_iff.mp h

theorem moves_of_step {m : Move} (h : s.step m = some s') : s.Moves m s' := by
  cases m with
  | notify e =>
      cases h
      exact .notify e
  | flush =>
      cases h
      exact .flush
  | shutdown =>
      cases h
      exact .shutdown
  | receive =>
      obtain ⟨hidle, ⟨⟩⟩ := Option.ite_none_right_eq_some.mp h
      exact .receive hidle
  | attempt outcome =>
      simp only [step] at h
      split at h
      · rename_i hworker
        cases h
        exact .attempt outcome hworker
      · cases h
  | wake =>
      simp only [step] at h
      split at h
      · rename_i hworker
        cases h
        exact .wake hworker
      · cases h
  | deadLetters =>
      obtain ⟨hpresent, ⟨⟩⟩ := Option.ite_none_right_eq_some.mp h
      exact .deadLetters hpresent
  | takeDeadLetters =>
      obtain ⟨hpresent, ⟨⟩⟩ := Option.ite_none_right_eq_some.mp h
      exact .takeDeadLetters hpresent
  | leave =>
      obtain ⟨⟨hstopped, hpresent⟩, ⟨⟩⟩ := Option.ite_none_right_eq_some.mp h
      exact .leave hstopped hpresent

theorem post_of_accepting (h : s.relay.accepting = true) (m : Outgoing) :
    s.post m =
      { s with relay := { s.relay with outbox := s.relay.outbox ++ [m] }, sent := s.sent ++ [m] }
    := by
  rw [post, send?_of_accepting h]

theorem post_of_closed (h : s.relay.accepting = false) (m : Outgoing) : s.post m = s := by
  rw [post, send?_of_closed h]

theorem learn_cases (h : s.relay.worker = .attempting e failed left)
    (outcome : Except PublishError Unit) :
    (outcome = .ok () ∧
        s.learn e outcome = { s with
          relay := { s.relay with worker := .idle }
          offers := s.offers ++ [(e, outcome)]
          failures := []
          handled := s.handled ++ [⟨e, s.failures, true⟩] }) ∨
      (∃ cause, outcome = .error cause ∧ left = 0 ∧
        s.learn e outcome = { s with
          relay := { s.relay with worker := .idle, deadLetters := s.relay.deadLetters ++ [e] }
          offers := s.offers ++ [(e, outcome)]
          failures := []
          handled := s.handled ++ [⟨e, s.failures ++ [cause], false⟩] }) ∨
      ∃ cause rest, outcome = .error cause ∧ left = rest + 1 ∧
        s.learn e outcome = { s with
          relay := { s.relay with worker := .backingOff e (failed + 1) rest }
          offers := s.offers ++ [(e, outcome)]
          failures := s.failures ++ [cause] } := by
  unfold learn
  rcases settle_cases h outcome with
    ⟨rfl, hsettle⟩ | ⟨cause, rfl, hleft, hsettle⟩ | ⟨cause, rest, rfl, hleft, hsettle⟩
  · exact .inl ⟨rfl, by simp only [hsettle]⟩
  · exact .inr (.inl ⟨cause, rfl, hleft, by simp only [hsettle, if_true]⟩)
  · exact .inr (.inr ⟨cause, rest, rfl, hleft, by simp only [hsettle, reduceCtorEq, if_false]⟩)

@[simp] theorem relay_learn (s : Session) (e : Event) (outcome : Except PublishError Unit) :
    (s.learn e outcome).relay = s.relay.settle outcome := by
  unfold learn
  cases outcome with
  | ok => rfl
  | error cause =>
      simp only
      split <;> rfl

@[simp] theorem sent_learn (s : Session) (e : Event) (outcome : Except PublishError Unit) :
    (s.learn e outcome).sent = s.sent := by
  unfold learn
  cases outcome with
  | ok => rfl
  | error cause =>
      simp only
      split <;> rfl

theorem sent_post (s : Session) (m : Outgoing) : s.sent <+: (s.post m).sent := by
  unfold post
  split
  · exact List.prefix_append _ _
  · exact List.prefix_refl _

theorem sent_step {m : Move} (h : s.step m = some s') : s.sent <+: s'.sent := by
  cases moves_of_step h with
  | notify | flush | shutdown => exact s.sent_post _
  | attempt outcome => simp
  | wake | receive | deadLetters | takeDeadLetters | leave => exact List.prefix_refl _

theorem received_of_sent {pre : List Outgoing} (h : s.sent = pre ++ s.relay.outbox) :
    s.received = pre := by
  rw [received, h, List.length_append, Nat.add_sub_cancel, List.take_left]

theorem exists_work (hstopped : s.relay.worker = .stopped → s.relay.outbox = [])
    (h : s.relay.pending ≠ []) (outcome : Except PublishError Unit) :
    ∃ m s', (m = .receive ∨ m = .attempt outcome ∨ m = .wake) ∧ s.step m = some s' := by
  cases hworker : s.relay.worker with
  | idle => exact ⟨.receive, _, .inl rfl, by rw [step, if_pos hworker]⟩
  | attempting e failed left => exact ⟨.attempt outcome, _, .inr (.inl rfl), by rw [step, hworker]⟩
  | backingOff e failed left => exact ⟨.wake, _, .inr (.inr rfl), by rw [step, hworker]⟩
  | stopped =>
      refine absurd ?_ h
      simp [pending, hworker, hstopped hworker, Worker.inHand]

end Session

end Relay

end Ledger
