import Ledger.Proofs.Relay.Pending
import Ledger.Relay
import Mathlib.Algebra.Group.Nat.Defs

namespace Ledger

/-- A bus that has been offered a message a number of times. -/
def Publisher.offered (p : Publisher) (m : Message) (times : Nat) : Publisher :=
  Nat.repeat (fun p => (p.publish m).1) times p

/-- What a bus answers to a message that it is offered again and again, counted from one. -/
def Publisher.answer (p : Publisher) (m : Message) (attempt : Nat) : Except PublishError Unit :=
  ((p.offered m (attempt - 1)).publish m).2

namespace Relay

/-- What the worker does while it has an event in hand: it makes an attempt, which has a number, or
it waits. -/
inductive Act where
  | publish (attempt : Nat) (m : Message)
  | wait (delay : Duration)

def Act.message? : Act → Option Message
  | publish _ m => some m
  | wait _ => none

/-- The relay after its worker is done with an event, what the worker did for it, and how the last
attempt ended. -/
structure Delivered where
  relay : Relay
  acts : List Act
  result : Option (Except PublishError Unit)

/-- The messages that the bus was offered. -/
def Delivered.messages (d : Delivered) : List Message :=
  d.acts.filterMap Act.message?

/-- Lets the worker go on until it is done with the event in hand. The bus answers the attempts by
`outcomes`, which count from one. -/
def deliver (r : Relay) (outcomes : Nat → Except PublishError Unit) : Delivered :=
  match hw : r.worker with
  | .attempting e failed _ =>
      let later := deliver (r.settle (outcomes (failed + 1))) outcomes
      { relay := later.relay
        acts := .publish (failed + 1) e.message :: later.acts
        result := later.result <|> some (outcomes (failed + 1)) }
  | .backingOff _ _ _ =>
      let later := deliver r.wake outcomes
      { later with acts := .wait r.backoff :: later.acts }
  | .idle | .stopped => ⟨r, [], none⟩
termination_by r.worker.steps
decreasing_by
  · exact steps_settle_lt hw _
  · exact steps_wake_lt hw

/-- As many failed attempts, counted from the given one, each followed by a wait, and one more. -/
def tries (c : RelayConfig) (m : Message) (first failed : Nat) : List Act :=
  ((List.range' first failed).flatMap fun i => [.publish i m, .wait (c.backoffAfter i)]) ++
    [.publish (first + failed) m]

variable {r : Relay} {e : Event} {failed left : Nat} {outcomes : Nat → Except PublishError Unit}

theorem deliver_of_attempting (h : r.worker = .attempting e failed left)
    (outcomes : Nat → Except PublishError Unit) :
    r.deliver outcomes =
      { relay := ((r.settle (outcomes (failed + 1))).deliver outcomes).relay
        acts := .publish (failed + 1) e.message ::
          ((r.settle (outcomes (failed + 1))).deliver outcomes).acts
        result := ((r.settle (outcomes (failed + 1))).deliver outcomes).result <|>
          some (outcomes (failed + 1)) } := by
  rw [deliver]
  split
  all_goals
    rename_i hworker
    cases h.symm.trans hworker
  rfl

theorem deliver_of_backingOff (h : r.worker = .backingOff e failed left)
    (outcomes : Nat → Except PublishError Unit) :
    r.deliver outcomes =
      { r.wake.deliver outcomes with
        acts := .wait (r.config.backoffAfter failed) :: (r.wake.deliver outcomes).acts } := by
  have hbackoff : r.backoff = r.config.backoffAfter failed := by rw [backoff, h]
  rw [deliver, ← hbackoff]
  split
  all_goals
    rename_i hworker
    cases h.symm.trans hworker
  rfl

theorem deliver_of_idle (h : r.worker = .idle) (outcomes : Nat → Except PublishError Unit) :
    r.deliver outcomes = ⟨r, [], none⟩ := by
  rw [deliver]
  split
  all_goals
    rename_i hworker
    cases h.symm.trans hworker
  rfl

theorem tries_succ (c : RelayConfig) (m : Message) (first failed : Nat) :
    tries c m first (failed + 1) =
      .publish first m :: .wait (c.backoffAfter first) :: tries c m (first + 1) failed := by
  simp only [tries, List.range'_succ, List.flatMap_cons, List.cons_append, List.nil_append]
  rw [Nat.add_right_comm, Nat.add_assoc]

/-- The attempt that ends the delivery: the first that succeeds, or the last that is allowed. -/
structure IsLast (outcomes : Nat → Except PublishError Unit) (allowed last : Nat) : Prop where
  le : last ≤ allowed
  before : ∀ i, 1 ≤ i → i < last → outcomes i ≠ .ok ()
  ends : last = allowed ∨ outcomes last = .ok ()

/-- The relay after the last attempt for an event. -/
def concluded (r : Relay) (e : Event) : Except PublishError Unit → Relay
  | .ok () => { r with worker := .idle }
  | .error _ => { r with worker := .idle, deadLetters := r.deadLetters ++ [e] }

@[simp] theorem worker_concluded (r : Relay) (e : Event) (outcome : Except PublishError Unit) :
    (r.concluded e outcome).worker = .idle := by
  cases outcome <;> rfl

theorem settle_of_last {outcome : Except PublishError Unit}
    (h : r.worker = .attempting e failed left) (hlast : left = 0 ∨ outcome = .ok ()) :
    r.settle outcome = r.concluded e outcome := by
  rcases settle_cases h outcome with
    ⟨rfl, hsettle⟩ | ⟨cause, rfl, -, hsettle⟩ | ⟨cause, rest, rfl, hleft, -⟩
  · exact hsettle
  · exact hsettle
  · rw [hleft] at hlast
    rcases hlast with hzero | hok
    · cases hzero
    · cases hok

theorem deliver_of_last (h : r.worker = .attempting e failed left)
    (hlast : left = 0 ∨ outcomes (failed + 1) = .ok ()) :
    r.deliver outcomes =
      ⟨r.concluded e (outcomes (failed + 1)), [.publish (failed + 1) e.message],
        some (outcomes (failed + 1))⟩ := by
  rw [deliver_of_attempting h, settle_of_last h hlast, deliver_of_idle (worker_concluded _ _ _)]
  rfl

theorem settle_of_failed {cause : PublishError} (h : r.worker = .attempting e failed (left + 1)) :
    r.settle (.error cause) = { r with worker := .backingOff e (failed + 1) left } := by
  simp only [settle, h]

theorem deliver_of_failed {cause : PublishError} (h : r.worker = .attempting e failed (left + 1))
    (herror : outcomes (failed + 1) = .error cause) :
    r.deliver outcomes =
      let later := deliver { r with worker := .attempting e (failed + 1) left } outcomes
      { relay := later.relay
        acts := .publish (failed + 1) e.message ::
          .wait (r.config.backoffAfter (failed + 1)) :: later.acts
        result := later.result <|> some (.error cause) } := by
  rw [deliver_of_attempting h, herror, settle_of_failed h, deliver_of_backingOff rfl]
  rfl

theorem exists_deliver (h : r.worker = .attempting e failed left)
    (hbefore : ∀ i, 1 ≤ i → i ≤ failed → outcomes i ≠ .ok ()) :
    ∃ more, IsLast outcomes (failed + 1 + left) (failed + 1 + more) ∧
      r.deliver outcomes =
        ⟨r.concluded e (outcomes (failed + 1 + more)), tries r.config e.message (failed + 1) more,
          some (outcomes (failed + 1 + more))⟩ := by
  induction left generalizing r failed with
  | zero =>
      refine ⟨0, ⟨Nat.le_refl _, ?_, .inl rfl⟩, deliver_of_last h (.inl rfl)⟩
      intro i hpos hi
      exact hbefore i hpos (Nat.le_of_lt_succ hi)
  | succ left ih =>
      cases houtcome : outcomes (failed + 1) with
      | ok =>
          refine ⟨0, ⟨by omega, ?_, .inr houtcome⟩, deliver_of_last h (.inr houtcome)⟩
          intro i hpos hi
          exact hbefore i hpos (Nat.le_of_lt_succ hi)
      | error cause =>
          have hbefore' : ∀ i, 1 ≤ i → i ≤ failed + 1 → outcomes i ≠ .ok () := by
            intro i hpos hi hok
            rcases Nat.lt_or_eq_of_le hi with hlt | rfl
            · exact hbefore i hpos (Nat.le_of_lt_succ hlt) hok
            · rw [houtcome] at hok
              cases hok
          obtain ⟨more, hlast, hlater⟩ :=
            ih (r := { r with worker := .attempting e (failed + 1) left }) rfl hbefore'
          have hnumber : failed + 1 + (more + 1) = failed + 1 + 1 + more := by omega
          have hallowed : failed + 1 + (left + 1) = failed + 1 + 1 + left := by omega
          refine ⟨more + 1, ?_, ?_⟩
          · rw [hnumber, hallowed]
            exact hlast
          · rw [deliver_of_failed h houtcome, hlater, hnumber, tries_succ]
            rfl

@[simp] theorem filterMap_tries (c : RelayConfig) (m : Message) (first failed : Nat) :
    (tries c m first failed).filterMap Act.message? = List.replicate (failed + 1) m := by
  induction failed generalizing first with
  | zero => rfl
  | succ failed ih =>
      simp only [tries_succ, List.filterMap_cons, Act.message?, ih, List.replicate_succ]

theorem attempt_of_mem_tries {c : RelayConfig} {m m' : Message} {first attempt : Nat}
    (h : .publish attempt m' ∈ tries c m first failed) : attempt ≤ first + failed := by
  induction failed generalizing first with
  | zero =>
      have heq : attempt = first ∧ m' = m := by simpa [tries] using h
      omega
  | succ failed ih =>
      rw [tries_succ] at h
      rcases List.mem_cons.mp h with heq | hmem
      · cases heq
        omega
      · rcases List.mem_cons.mp hmem with heq | hmem
        · cases heq
        · have hle := ih hmem
          omega

/-- The first attempt that succeeds. -/
structure FirstSuccess (outcomes : Nat → Except PublishError Unit) (j : Nat) : Prop where
  pos : 1 ≤ j
  succeeds : outcomes j = .ok ()
  before : ∀ i, 1 ≤ i → i < j → outcomes i ≠ .ok ()

namespace IsLast

variable {allowed last j : Nat}

theorem eq_min (h : IsLast outcomes allowed last) (hpos : 1 ≤ last)
    (hj : FirstSuccess outcomes j) : last = min j allowed := by
  have hle := h.le
  have hfirst : last ≤ j :=
    Nat.le_of_not_lt fun hlt => h.before j hj.pos hlt hj.succeeds
  rcases h.ends with hall | hok
  · omega
  · have hreached : ¬last < j := fun hlt => hj.before last hpos hlt hok
    omega

theorem ok_iff (h : IsLast outcomes allowed last) (hpos : 1 ≤ last) :
    outcomes last = .ok () ↔ ∃ j, FirstSuccess outcomes j ∧ j ≤ allowed := by
  constructor
  · intro hok
    exact ⟨last, ⟨hpos, hok, h.before⟩, h.le⟩
  · rintro ⟨j, hj, hle⟩
    have hlast := h.eq_min hpos hj
    rw [Nat.min_eq_left hle] at hlast
    exact hlast ▸ hj.succeeds

end IsLast

theorem drain_of_attempting (h : r.worker = .attempting e failed left) (p : Publisher) :
    r.drain p = (r.settle (p.publish e.message).2).drain (p.publish e.message).1 := by
  rw [drain]
  split
  all_goals
    rename_i hworker
    cases h.symm.trans hworker
  rfl

theorem drain_of_backingOff (h : r.worker = .backingOff e failed left) (p : Publisher) :
    r.drain p = r.wake.drain p := by
  rw [drain]
  split
  all_goals
    rename_i hworker
    cases h.symm.trans hworker
  rfl

theorem drain_of_last {p : Publisher} {outcome : Except PublishError Unit}
    (h : r.worker = .attempting e failed left) (hanswer : (p.publish e.message).2 = outcome)
    (hlast : left = 0 ∨ outcome = .ok ()) :
    r.drain p = (r.concluded e outcome).drain (p.publish e.message).1 := by
  rw [drain_of_attempting h, hanswer, settle_of_last h hlast]

theorem drain_of_failed {p : Publisher} {cause : PublishError}
    (h : r.worker = .attempting e failed (left + 1))
    (hanswer : (p.publish e.message).2 = .error cause) :
    r.drain p = drain { r with worker := .attempting e (failed + 1) left } (p.publish e.message).1
    := by
  rw [drain_of_attempting h, hanswer, settle_of_failed h, drain_of_backingOff rfl]
  rfl

/-- What a relay does while it is drained is to deliver the event in hand, and to go on. -/
theorem drain_eq_deliver (h : r.worker = .attempting e failed left) (p : Publisher) :
    r.drain (p.offered e.message failed) =
      (r.deliver (p.answer e.message)).relay.drain
        (p.offered e.message (failed + (r.deliver (p.answer e.message)).messages.length)) := by
  induction left generalizing r failed with
  | zero =>
      rw [drain_of_last h rfl (.inl rfl), deliver_of_last h (.inl rfl)]
      rfl
  | succ left ih =>
      have hanswer : ((p.offered e.message failed).publish e.message).2 =
          p.answer e.message (failed + 1) := rfl
      cases houtcome : p.answer e.message (failed + 1) with
      | ok =>
          rw [houtcome] at hanswer
          rw [drain_of_last h hanswer (.inr rfl), deliver_of_last h (.inr houtcome), houtcome]
          rfl
      | error cause =>
          have hlater := ih (r := { r with worker := .attempting e (failed + 1) left }) rfl
          have hcount : ∀ more, failed + 1 + more = failed + (more + 1) := by omega
          rw [houtcome] at hanswer
          rw [drain_of_failed h hanswer, deliver_of_failed h houtcome]
          rw [hcount] at hlater
          exact hlater

/-- What the worker of a relay does for an event that it takes out of the outbox. -/
structure DeliversExactly (r : Relay) (e : Event) (rest : List Outgoing)
    (outcomes : Nat → Except PublishError Unit) (d : Delivered) : Prop where
  /-- The bus is called up to the first success, but not more often than is allowed. -/
  succeeds : ∀ j, FirstSuccess outcomes j → d.messages.length = min j r.config.maxAttempts
  fails : (∀ i, 1 ≤ i → i ≤ r.config.maxAttempts → outcomes i ≠ .ok ()) →
    d.messages.length = r.config.maxAttempts
  /-- It is always offered the same message. -/
  messages : ∀ m ∈ d.messages, m = ⟨e.topic, e.key, e.payload⟩
  /-- The worker waits after every attempt but the last, as long as the configuration says. -/
  acts : d.acts = tries r.config e.message 1 (d.messages.length - 1)
  /-- The last attempt decides. -/
  result : d.result = some (outcomes d.messages.length)
  ok_iff : d.result = some (.ok ()) ↔
    ∃ j, FirstSuccess outcomes j ∧ j ≤ r.config.maxAttempts
  relay : d.relay = { r with outbox := rest }.concluded e (outcomes d.messages.length)
  /-- The number of an attempt always has 32 bits. -/
  counter : ∀ attempt m, .publish attempt m ∈ d.acts → attempt < 2 ^ 32

/-- However the bus answers, an event is offered to it until it is accepted or has used up its
attempts, with the configured waits in between. -/
theorem delivers_exactly {rest : List Outgoing} (houtbox : r.outbox = .event e :: rest)
    (hpos : 1 ≤ r.config.maxAttempts) (hlt : r.config.maxAttempts < 2 ^ 32)
    (outcomes : Nat → Except PublishError Unit) :
    r.DeliversExactly e rest outcomes (r.receive.deliver outcomes) := by
  have hreceive : r.receive =
      { r with outbox := rest, worker := .attempting e 0 (r.config.maxAttempts - 1) } := by
    simp only [receive, houtbox]
  have hworker : r.receive.worker = .attempting e 0 (r.config.maxAttempts - 1) := by rw [hreceive]
  have hnone : ∀ i, 1 ≤ i → i ≤ 0 → outcomes i ≠ .ok () := by omega
  obtain ⟨more, hlast, hdeliver⟩ := exists_deliver hworker hnone
  have hallowed : 0 + 1 + (r.config.maxAttempts - 1) = r.config.maxAttempts := by omega
  rw [hallowed, Nat.zero_add, Nat.add_comm] at hlast
  rw [Nat.zero_add, Nat.add_comm 1 more] at hdeliver
  have hfirst : 1 ≤ more + 1 := by omega
  have hmessages : (r.receive.deliver outcomes).messages = List.replicate (more + 1) e.message := by
    rw [Delivered.messages, hdeliver, filterMap_tries]
  have hlength : (r.receive.deliver outcomes).messages.length = more + 1 := by
    rw [hmessages, List.length_replicate]
  refine
    { succeeds := ?_, fails := ?_, messages := ?_, acts := ?_, result := ?_, ok_iff := ?_
      relay := ?_, counter := ?_ }
  · intro j hj
    rw [hlength]
    exact hlast.eq_min hfirst hj
  · intro hfails
    rw [hlength]
    exact hlast.ends.resolve_right (hfails _ hfirst hlast.le)
  · intro m hm
    rw [hmessages] at hm
    exact List.eq_of_mem_replicate hm
  · rw [hlength, hdeliver, hreceive]
    rfl
  · rw [hlength, hdeliver]
  · rw [hdeliver, Option.some_inj]
    exact hlast.ok_iff hfirst
  · rw [hlength, hdeliver, hreceive]
    cases outcomes (more + 1) <;> rfl
  · intro attempt m hm
    rw [hdeliver] at hm
    have hle := attempt_of_mem_tries hm
    have hall := hlast.le
    omega

/-- With as many attempts as there can be, the third one succeeds. -/
theorem delivers_exactly_third :
    let e : Event := .accountCreated 1 1 "savings" "USD" .active
    let r : Relay :=
      { config := ⟨2 ^ 32 - 1, .ofMillis 50, .ofMillis 2000⟩, outbox := [.event e] }
    let outcomes : Nat → Except PublishError Unit := fun attempt =>
      if attempt < 3 then .error (.timeout 5) else .ok ()
    FirstSuccess outcomes 3 ∧
      (r.receive.deliver outcomes).acts =
        [.publish 1 e.message, .wait (.ofMillis 50), .publish 2 e.message, .wait (.ofMillis 100),
          .publish 3 e.message] ∧
      (r.receive.deliver outcomes).result = some (.ok ()) ∧
      r.DeliversExactly e [] outcomes (r.receive.deliver outcomes) := by
  intro e r outcomes
  have hfirst : FirstSuccess outcomes 3 := by
    refine ⟨by decide, rfl, fun i hpos hi => ?_⟩
    simp [outcomes, hi]
  have hdelivers := delivers_exactly (r := r) rfl (by decide) (by decide) outcomes
  have hlength : (r.receive.deliver outcomes).messages.length = 3 := hdelivers.succeeds 3 hfirst
  refine ⟨hfirst, ?_, ?_, hdelivers⟩
  · have hshort : r.config.backoffAfter 1 = .ofMillis 50 := by decide
    have hlong : r.config.backoffAfter (1 + 1) = .ofMillis 100 := by decide
    rw [hdelivers.acts, hlength]
    show tries r.config e.message 1 2 = _
    rw [tries_succ, tries_succ, hshort, hlong]
    rfl
  · rw [hdelivers.result, hlength]
    rfl

end Relay

end Ledger
