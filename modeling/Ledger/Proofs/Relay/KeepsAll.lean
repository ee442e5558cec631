import Ledger.Proofs.Relay.Progress

namespace Ledger.Relay.Session

open Delivery

/-- What a relay owes to those who send it events. -/
structure KeepsAll (config : RelayConfig) (s : Session) : Prop where
  /-- The events that were accepted are handled in the order of the outbox, each of them once. -/
  handled : s.events = s.handled.map (·.event) ++ s.relay.pending
  /-- What is handled has been published by one call of the bus, the last one made for it, or was
  refused as often as is allowed. -/
  complete : ∀ d ∈ s.handled, d.Complete config.attempts
  /-- No other calls of the bus are made. -/
  offers : s.offers =
    s.handled.flatMap Delivery.offers ++ s.relay.worker.inHand.flatMap (refusals · s.failures)
  /-- A flush is acknowledged only when every event sent before it has been handled. -/
  flush : ∀ (k : Nat) (ticket : Ticket), s.sent[k]? = some (.flush ticket) →
    ticket ∈ s.relay.acknowledged →
    (s.sent.take k).filterMap Outgoing.event? <+: s.handled.map (·.event)
  /-- An event is accepted until the worker has turned to a shutdown. -/
  accepts : (∀ ticket, .shutdown ticket ∉ s.received) →
    ∀ (service : Service) (e : Event), service.relay = some s.relay →
      ∃ s', s.step (.notify e) = some s' ∧ s'.events = s.events ++ [e] ∧
        service.announce e = ({ service with relay := some s'.relay }, .ok ())
  /-- After that its announcement fails. -/
  refuses : ∀ ticket, .shutdown ticket ∈ s.received →
    ∀ (service : Service) (e : Event), service.relay = some s.relay →
      service.announce e = (service, .error (.publishFailure e.topic Service.relayStopped))
  /-- The worker never waits for anything but the bus while there is something to do. -/
  works : s.relay.pending ≠ [] → ∀ outcome, ∃ m s',
    (m = .receive ∨ m = .attempt outcome ∨ m = .wake) ∧ s.step m = some s'
  /-- After as many steps of the worker as there is work, whatever else happens meanwhile, all that
  was accepted is handled and every flush is acknowledged. -/
  drains : ∀ moves s', s.run moves = some s' → s.relay.load ≤ moves.countP Move.isWork →
    s.events <+: s'.handled.map (·.event) ∧
      ∀ ticket, .flush ticket ∈ s.sent → ticket ∈ s'.relay.acknowledged
  /-- The dead letters that were taken, with those still there, are the events that used up their
  attempts. -/
  letters : s.taken.flatten ++ s.relay.deadLetters = exhausted s.handled
  /-- The shutdown returns when everything is handled, with the dead letters not taken before. -/
  returned : ∀ letters, s.returned = some letters →
    s.taken.flatten ++ letters = exhausted s.handled ∧ s.events = s.handled.map (·.event)

variable {config : RelayConfig} {before : List Outgoing} {s s' : Session}

namespace Sound

theorem events_eq (hs : s.Sound config before) :
    s.events = s.handled.map (·.event) ++ s.relay.pending := by
  rw [Session.events, hs.sent, pending, List.filterMap_append, List.filterMap_append, hs.events,
    List.append_assoc, List.filterMap_map]
  congr 2
  exact List.filterMap_some

theorem prefix_of_reached (hs : s.Sound config before) {k : Nat} (hk : k < before.length) :
    (s.sent.take k).filterMap Outgoing.event? <+: s.handled.map (·.event) := by
  have hfirst : before.take k <+: before := List.take_prefix k before
  rw [hs.sent, List.append_assoc, List.take_append_of_le_length (Nat.le_of_lt hk), ← hs.events]
  exact hfirst.filterMap _

theorem shutdown_mem_received (hs : s.Sound config before) :
    s.relay.accepting = false ↔ ∃ ticket, .shutdown ticket ∈ s.received := by
  simp [hs.closed, hs.received_eq]

theorem accepts (hs : s.Sound config before) (hopen : ∀ ticket, .shutdown ticket ∉ s.received)
    {service : Service} (e : Event) (hrelay : service.relay = some s.relay) :
    ∃ s', s.step (.notify e) = some s' ∧ s'.events = s.events ++ [e] ∧
      service.announce e = ({ service with relay := some s'.relay }, .ok ()) := by
  have haccepting : s.relay.accepting = true := by
    rw [← Bool.not_eq_false, hs.shutdown_mem_received]
    rintro ⟨ticket, hticket⟩
    exact hopen ticket hticket
  refine ⟨_, rfl, ?_, ?_⟩
  · rw [post_of_accepting haccepting]
    simp [Session.events, Outgoing.event?]
  · rw [post_of_accepting haccepting]
    simp only [Service.announce, hrelay, send?_of_accepting haccepting]

theorem refuses (hs : s.Sound config before) {ticket : Ticket}
    (hclosed : .shutdown ticket ∈ s.received) {service : Service} (e : Event)
    (hrelay : service.relay = some s.relay) :
    service.announce e = (service, .error (.publishFailure e.topic Service.relayStopped)) := by
  have haccepting := hs.shutdown_mem_received.mpr ⟨ticket, hclosed⟩
  simp only [Service.announce, hrelay, send?_of_closed haccepting]

theorem drains (hs : s.Sound config before) {moves : List Move} (hrun : s.run moves = some s')
    (hwork : s.relay.load ≤ moves.countP Move.isWork) :
    s.events <+: s'.handled.map (·.event) ∧
      ∀ ticket, .flush ticket ∈ s.sent → ticket ∈ s'.relay.acknowledged := by
  rw [← hs.backlog_length_sent] at hwork
  obtain ⟨before', hs', hfirst⟩ := hs.take_prefix_of_run (Nat.le_refl _) hrun hwork
  rw [List.take_length] at hfirst
  constructor
  · rw [← hs'.events]
    exact hfirst.filterMap _
  · intro ticket hticket
    exact hs'.flushed ticket (hfirst.subset hticket)

theorem pending_of_stopped (hs : s.Sound config before) (h : s.relay.worker = .stopped) :
    s.relay.pending = [] := by
  rw [pending, h, (hs.stopped h).1]
  rfl

end Sound

/-- A relay loses no event and handles none twice, whoever sends what and when, however the bus
answers, and whenever the dead letters are taken away. -/
theorem keepsAll {moves : List Move} (h : (start config).run moves = some s) :
    s.KeepsAll config := by
  obtain ⟨before, -, hs⟩ := (sound_start config).run h
  refine
    { handled := hs.events_eq
      complete := hs.complete
      offers := hs.offers
      flush := ?_
      accepts := fun hopen service e hrelay => hs.accepts hopen e hrelay
      refuses := fun ticket hclosed service e hrelay => hs.refuses hclosed e hrelay
      works := fun hpending outcome => exists_work (fun hstopped => (hs.stopped hstopped).1)
        hpending outcome
      drains := fun moves s' hrun hwork => hs.drains hrun hwork
      letters := hs.letters
      returned := ?_ }
  · intro k ticket hflush hacknowledged
    have hk := hs.numbered k _ ticket hflush rfl
    exact hs.prefix_of_reached (hk ▸ hs.reached ticket (List.mem_append_left _ hacknowledged))
  · intro letters hletters
    obtain ⟨hstopped, rfl⟩ := hs.returned letters hletters
    refine ⟨hs.letters, ?_⟩
    rw [hs.events_eq, hs.pending_of_stopped hstopped, List.append_nil]

/-- The first event is refused at both attempts and taken away as a dead letter; the second is
published before the shutdown returns, and a third comes too late. -/
def untilShutdown : List Move :=
  [.notify (.accountCreated 1 1 "savings" "USD" .active), .flush, .receive,
    .attempt (.error (.timeout 5)), .wake,
    .notify (.accountCreated 2 1 "savings" "EUR" .active), .attempt (.error (.timeout 5)),
    .receive, .takeDeadLetters, .shutdown, .receive, .attempt (.ok ()), .receive,
    .notify (.accountCreated 3 1 "savings" "JPY" .active), .receive, .leave]

theorem keepsAll_shutdown :
    ∃ s, (start ⟨2, .ofMillis 1, .ofMillis 1⟩).run untilShutdown = some s ∧
      s.handled.map (fun d => (d.event.key, d.published)) = [("1", false), ("2", true)] ∧
      s.relay.acknowledged = [1, 3] ∧ s.returned = some [] ∧
      s.KeepsAll ⟨2, .ofMillis 1, .ofMillis 1⟩ := by
  obtain ⟨s, hrun, hseen⟩ := Option.map_eq_some_iff.mp
    (show ((start ⟨2, .ofMillis 1, .ofMillis 1⟩).run untilShutdown).map
        (fun s => (s.handled.map (fun d => (d.event.key, d.published)), s.relay.acknowledged,
          s.returned)) =
      some ([("1", false), ("2", true)], [1, 3], some []) by decide +kernel)
  obtain ⟨hhandled, hacknowledged, hreturned⟩ := by simpa using hseen
  exact ⟨s, hrun, hhandled, hacknowledged, hreturned, keepsAll hrun⟩

end Ledger.Relay.Session
