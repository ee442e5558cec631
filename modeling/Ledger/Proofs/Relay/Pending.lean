import Ledger.Relay
import Mathlib.Algebra.GroupWithZero.Nat

namespace Ledger

/-- The most attempts that one event gets; there is always one. -/
def RelayConfig.attempts (c : RelayConfig) : Nat :=
  max c.maxAttempts 1

/-- The event that a message brings into the outbox. -/
def Outgoing.event? : Outgoing → Option Event
  | event e => some e
  | flush _ | shutdown _ => none

/-- The event that the worker is busy with. -/
def Worker.inHand : Worker → List Event
  | attempting e _ _ | backingOff e _ _ => [e]
  | idle | stopped => []

namespace Relay

variable {r r' : Relay} {m : Outgoing} {e : Event} {failed left : Nat}

/-- The events that are in the outbox or in the worker's hands. -/
def pending (r : Relay) : List Event :=
  r.worker.inHand ++ r.outbox.filterMap Outgoing.event?

theorem send?_of_accepting (h : r.accepting = true) (m : Outgoing) :
    r.send? m = some { r with outbox := r.outbox ++ [m] } := by
  rw [send?, if_pos h]

theorem send?_of_closed (h : r.accepting = false) (m : Outgoing) : r.send? m = none := by
  simp [send?, h]

theorem pending_send? (h : r.send? m = some r') :
    r'.pending = r.pending ++ m.event?.toList := by
  unfold send? at h
  split at h
  · cases h
    cases m <;> simp [pending, Outgoing.event?]
  · cases h

theorem receive_cases (r : Relay) :
    (r.outbox = [] ∧ r.accepting = true ∧ r.receive = r) ∨
      (r.outbox = [] ∧ r.accepting = false ∧
        r.receive = { r with
          worker := .stopped, stopping := [], acknowledged := r.acknowledged ++ r.stopping }) ∨
      (∃ e rest, r.outbox = .event e :: rest ∧
        r.receive = { r with
          outbox := rest, worker := .attempting e 0 (r.config.maxAttempts - 1) }) ∨
      (∃ ticket rest, r.outbox = .flush ticket :: rest ∧
        r.receive = { r with outbox := rest, acknowledged := r.acknowledged ++ [ticket] }) ∨
      ∃ ticket rest, r.outbox = .shutdown ticket :: rest ∧
        r.receive = { r with
          outbox := rest, accepting := false, stopping := r.stopping ++ [ticket] } := by
  unfold receive
  split
  · rename_i hempty
    by_cases haccepting : r.accepting = true
    · rw [if_pos haccepting]
      exact .inl ⟨hempty, haccepting, rfl⟩
    · rw [if_neg haccepting]
      exact .inr (.inl ⟨hempty, by simpa using haccepting, rfl⟩)
  · rename_i e rest houtbox
    exact .inr (.inr (.inl ⟨e, rest, houtbox, rfl⟩))
  · rename_i ticket rest houtbox
    exact .inr (.inr (.inr (.inl ⟨ticket, rest, houtbox, rfl⟩)))
  · rename_i ticket rest houtbox
    exact .inr (.inr (.inr (.inr ⟨ticket, rest, houtbox, rfl⟩)))

theorem pending_receive (h : r.worker = .idle) : r.receive.pending = r.pending := by
  rcases r.receive_cases with ⟨-, -, hreceive⟩ | ⟨houtbox, -, hreceive⟩ |
    ⟨e, rest, houtbox, hreceive⟩ | ⟨ticket, rest, houtbox, hreceive⟩ |
    ⟨ticket, rest, houtbox, hreceive⟩
  · rw [hreceive]
  all_goals
    rw [hreceive]
    simp [pending, h, houtbox, Worker.inHand, Outgoing.event?, List.filterMap_cons]

/-- How an attempt ends: the event is published, it has used up its attempts, or it is tried
again. -/
theorem settle_cases (h : r.worker = .attempting e failed left)
    (outcome : Except PublishError Unit) :
    (outcome = .ok () ∧ r.settle outcome = { r with worker := .idle }) ∨
      (∃ cause, outcome = .error cause ∧ left = 0 ∧
        r.settle outcome = { r with worker := .idle, deadLetters := r.deadLetters ++ [e] }) ∨
      ∃ cause rest, outcome = .error cause ∧ left = rest + 1 ∧
        r.settle outcome = { r with worker := .backingOff e (failed + 1) rest } := by
  unfold settle
  rw [h]
  cases outcome with
  | ok => exact .inl ⟨rfl, rfl⟩
  | error cause =>
      cases left with
      | zero => exact .inr (.inl ⟨cause, rfl, rfl, rfl⟩)
      | succ rest => exact .inr (.inr ⟨cause, rest, rfl, rfl, rfl⟩)

@[simp] theorem config_settle (r : Relay) (outcome : Except PublishError Unit) :
    (r.settle outcome).config = r.config := by
  unfold settle
  split <;> rfl

@[simp] theorem config_wake (r : Relay) : r.wake.config = r.config := by
  unfold wake
  split <;> rfl

theorem wake_of_backingOff (h : r.worker = .backingOff e failed left) :
    r.wake = { r with worker := .attempting e failed left } := by
  rw [wake, h]

theorem pending_wake (r : Relay) : r.wake.pending = r.pending := by
  unfold wake
  split
  · rename_i hworker
    simp [pending, hworker, Worker.inHand]
  · rfl

/-- The most steps that a message takes the worker. -/
def cost (attempts : Nat) : Outgoing → Nat
  | .event _ => 2 * attempts
  | .flush _ | .shutdown _ => 1

theorem cost_pos (attempts : Nat) (h : 0 < attempts) (m : Outgoing) : 0 < cost attempts m := by
  cases m <;> simp [cost, h]

/-- The most steps in which the worker is through with everything that is in its hands or in the
outbox. -/
def load (r : Relay) : Nat :=
  r.worker.steps + (r.outbox.map (cost r.config.attempts)).sum

theorem pending_of_load (h : r.load = 0) : r.worker.inHand = [] ∧ r.outbox = [] := by
  unfold load at h
  have hattempts : 0 < r.config.attempts := by
    rw [RelayConfig.attempts]
    omega
  constructor
  · cases hworker : r.worker with
    | idle | stopped => rfl
    | attempting | backingOff => simp [hworker, Worker.steps] at h
  · cases houtbox : r.outbox with
    | nil => rfl
    | cons m rest =>
        have hcost := cost_pos _ hattempts m
        rw [houtbox, List.map_cons, List.sum_cons] at h
        omega

theorem load_receive_lt (hidle : r.worker = .idle) (hpos : 0 < r.load) :
    r.receive.load < r.load := by
  have hsteps : r.worker.steps = 0 := by rw [hidle, Worker.steps]
  have hempty : r.outbox ≠ [] := by
    intro houtbox
    simp [load, hsteps, houtbox] at hpos
  unfold load
  rcases r.receive_cases with ⟨houtbox, -, -⟩ | ⟨houtbox, -, -⟩ | ⟨e, rest, houtbox, hreceive⟩ |
    ⟨ticket, rest, houtbox, hreceive⟩ | ⟨ticket, rest, houtbox, hreceive⟩
  · exact absurd houtbox hempty
  · exact absurd houtbox hempty
  · rw [hreceive, houtbox, hsteps, List.map_cons, List.sum_cons]
    simp only [Worker.steps, cost, RelayConfig.attempts]
    omega
  all_goals
    rw [hreceive, houtbox, hsteps, List.map_cons, List.sum_cons]
    simp only [cost]
    omega

theorem load_settle_lt (h : r.worker = .attempting e failed left)
    (outcome : Except PublishError Unit) : (r.settle outcome).load < r.load := by
  have hless := steps_settle_lt h outcome
  simp only [load, outbox_settle, config_settle]
  omega

theorem load_wake_lt (h : r.worker = .backingOff e failed left) : r.wake.load < r.load := by
  have hless := steps_wake_lt h
  simp only [load, outbox_wake, config_wake]
  omega

/-- The relay as it would be if only the first `k` messages of its outbox had been sent. -/
def truncate (r : Relay) (k : Nat) : Relay :=
  { r with outbox := r.outbox.take k }

@[simp] theorem worker_truncate (r : Relay) (k : Nat) : (r.truncate k).worker = r.worker := rfl

theorem truncate_receive {rest : List Outgoing} (h : r.outbox = m :: rest) (k : Nat) :
    r.receive.truncate k = (r.truncate (k + 1)).receive := by
  unfold receive truncate
  simp only [h, List.take_succ_cons]
  cases m <;> rfl

theorem truncate_settle (r : Relay) (outcome : Except PublishError Unit) (k : Nat) :
    (r.settle outcome).truncate k = (r.truncate k).settle outcome := by
  unfold settle
  simp only [worker_truncate]
  split <;> rfl

theorem truncate_wake (r : Relay) (k : Nat) : r.wake.truncate k = (r.truncate k).wake := by
  unfold wake
  simp only [worker_truncate]
  split <;> rfl

end Relay

end Ledger
