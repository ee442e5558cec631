import Ledger.Proofs.Relay.Session

namespace Ledger

/-- The ticket of a marker. -/
def Outgoing.ticket? : Outgoing → Option Ticket
  | event _ => none
  | flush ticket | shutdown ticket => some ticket

/-- Whether the worker has counted the failures of the event in hand, and allows as many attempts as
are left. -/
def Worker.Carries (attempts : Nat) (failures : List PublishError) : Worker → Prop
  | idle | stopped => failures = []
  | attempting _ failed left | backingOff _ failed left =>
      failures.length = failed ∧ failed + left + 1 = attempts

namespace Relay.Session

open Delivery

/-- What is true of a relay when it is through with the given messages, which are the first that
were accepted. -/
structure Sound (config : RelayConfig) (before : List Outgoing) (s : Session) : Prop where
  same_config : s.relay.config = config
  sent : s.sent = before ++ s.relay.worker.inHand.map .event ++ s.relay.outbox
  events : before.filterMap Outgoing.event? = s.handled.map (·.event)
  complete : ∀ d ∈ s.handled, d.Complete config.attempts
  carries : s.relay.worker.Carries config.attempts s.failures
  offers : s.offers =
    s.handled.flatMap Delivery.offers ++ s.relay.worker.inHand.flatMap (refusals · s.failures)
  letters : s.taken.flatten ++ s.relay.deadLetters = exhausted s.handled
  closed : s.relay.accepting = false ↔ ∃ ticket, .shutdown ticket ∈ before
  stopped : s.relay.worker = .stopped → s.relay.outbox = [] ∧ s.relay.accepting = false
  numbered : ∀ (k : Nat) (m : Outgoing) (ticket : Ticket), s.sent[k]? = some m →
    m.ticket? = some ticket → k = ticket
  reached : ∀ ticket ∈ s.relay.acknowledged ++ s.relay.stopping, ticket < before.length
  flushed : ∀ ticket, .flush ticket ∈ before → ticket ∈ s.relay.acknowledged
  returned : ∀ letters, s.returned = some letters →
    s.relay.worker = .stopped ∧ s.relay.deadLetters = letters

variable {config : RelayConfig} {before : List Outgoing} {s s' : Session} {m : Outgoing}
  {e : Event} {failed left : Nat}

theorem sound_start (config : RelayConfig) : (start config).Sound config [] where
  same_config := rfl
  sent := rfl
  events := rfl
  complete _ h := nomatch h
  carries := rfl
  offers := rfl
  letters := rfl
  closed := by simp [start]
  stopped h := nomatch h
  numbered k m ticket h := by simp [start] at h
  reached _ h := nomatch h
  flushed _ h := nomatch h
  returned _ h := nomatch h

theorem exhausted_append (ds : List Delivery) (d : Delivery) :
    exhausted (ds ++ [d]) = exhausted ds ++ if d.published then [] else [d.event] := by
  cases hpublished : d.published <;> simp [exhausted, hpublished]

namespace Sound

theorem returned_eq_none (hs : s.Sound config before) (h : s.relay.worker ≠ .stopped) :
    s.returned = none := by
  cases hreturned : s.returned with
  | none => rfl
  | some letters => exact absurd (hs.returned letters hreturned).1 h

theorem post (hs : s.Sound config before)
    (hticket : ∀ ticket, m.ticket? = some ticket → s.sent.length = ticket) :
    (s.post m).Sound config before := by
  by_cases haccepting : s.relay.accepting = true
  · rw [post_of_accepting haccepting]
    refine { hs with sent := ?_, stopped := ?_, numbered := ?_ }
    · rw [← List.append_assoc, ← hs.sent]
    · intro hstopped
      have hclosed := (hs.stopped hstopped).2
      rw [haccepting] at hclosed
      cases hclosed
    · intro k m' ticket hk hm'
      rcases Nat.lt_or_ge k s.sent.length with hlt | hge
      · exact hs.numbered k m' ticket (by rwa [List.getElem?_append_left hlt] at hk) hm'
      · rw [List.getElem?_append_right hge, List.getElem?_singleton] at hk
        split at hk
        · cases hk
          rw [← hticket ticket hm']
          omega
        · cases hk
  · rw [post_of_closed (by simpa using haccepting)]
    exact hs

section Receive

variable {rest : List Outgoing} {ticket : Ticket}

theorem sent_of_idle (hs : s.Sound config before) (hidle : s.relay.worker = .idle) :
    s.sent = before ++ s.relay.outbox := by
  simpa [hidle, Worker.inHand] using hs.sent

theorem offers_of_idle (hs : s.Sound config before) (hidle : s.relay.worker = .idle) :
    s.offers = s.handled.flatMap Delivery.offers := by
  simpa [hidle, Worker.inHand] using hs.offers

theorem failures_of_idle (hs : s.Sound config before) (hidle : s.relay.worker = .idle) :
    s.failures = [] := by
  simpa [hidle, Worker.Carries] using hs.carries

theorem ticket_eq (hs : s.Sound config before) (hidle : s.relay.worker = .idle)
    (houtbox : s.relay.outbox = m :: rest) (hm : m.ticket? = some ticket) :
    before.length = ticket :=
  hs.numbered before.length m ticket (by simp [hs.sent_of_idle hidle, houtbox]) hm

theorem stop (hs : s.Sound config before) (hidle : s.relay.worker = .idle)
    (houtbox : s.relay.outbox = []) (hclosed : s.relay.accepting = false) :
    ({ s with
      relay := { s.relay with
        worker := .stopped, stopping := [], acknowledged := s.relay.acknowledged ++ s.relay.stopping
        } } : Session).Sound config before := by
  refine { hs with
    sent := ?_, carries := hs.failures_of_idle hidle, offers := ?_
    stopped := fun _ => ⟨houtbox, hclosed⟩, reached := ?_, flushed := ?_, returned := ?_ }
  · simpa [Worker.inHand] using hs.sent_of_idle hidle
  · simpa [Worker.inHand] using hs.offers_of_idle hidle
  · intro ticket hticket
    rw [List.append_nil] at hticket
    exact hs.reached ticket hticket
  · intro ticket hticket
    exact List.mem_append_left _ (hs.flushed ticket hticket)
  · intro letters hletters
    exact ⟨rfl, (hs.returned letters hletters).2⟩

theorem receive_event (hs : s.Sound config before) (hidle : s.relay.worker = .idle)
    (houtbox : s.relay.outbox = .event e :: rest) :
    ({ s with
      relay := { s.relay with
        outbox := rest, worker := .attempting e 0 (s.relay.config.maxAttempts - 1) } } :
      Session).Sound config before := by
  have hreturned := hs.returned_eq_none (by simp [hidle])
  refine { hs with
    sent := ?_, carries := ⟨by rw [hs.failures_of_idle hidle]; rfl, ?_⟩, offers := ?_
    stopped := nofun, returned := by simp [hreturned] }
  · simp [Worker.inHand, hs.sent_of_idle hidle, houtbox]
  · rw [hs.same_config, RelayConfig.attempts]
    omega
  · simp [Worker.inHand, hs.offers_of_idle hidle, hs.failures_of_idle hidle, refusals]

theorem receive_flush (hs : s.Sound config before) (hidle : s.relay.worker = .idle)
    (houtbox : s.relay.outbox = .flush ticket :: rest) :
    ({ s with
      relay := { s.relay with
        outbox := rest, acknowledged := s.relay.acknowledged ++ [ticket] } } :
      Session).Sound config (before ++ [.flush ticket]) := by
  have hticket := hs.ticket_eq hidle houtbox rfl
  have hreturned := hs.returned_eq_none (by simp [hidle])
  refine { hs with
    sent := ?_, events := ?_, closed := ?_, stopped := by simp [hidle], reached := ?_
    flushed := ?_, returned := by simp [hreturned] }
  · simp [hidle, Worker.inHand, hs.sent_of_idle hidle, houtbox]
  · simp [hs.events, Outgoing.event?]
  · simp [hs.closed]
  · intro other hother
    rw [List.length_append, List.length_singleton]
    simp only [List.mem_append, List.mem_singleton] at hother
    rcases hother with (hold | rfl) | hold
    · exact Nat.lt_succ_of_lt (hs.reached other (List.mem_append_left _ hold))
    · exact hticket ▸ Nat.lt_succ_self _
    · exact Nat.lt_succ_of_lt (hs.reached other (List.mem_append_right _ hold))
  · intro other hother
    rcases List.mem_append.mp hother with hold | hnew
    · exact List.mem_append_left _ (hs.flushed other hold)
    · cases List.mem_singleton.mp hnew
      simp

theorem receive_shutdown (hs : s.Sound config before) (hidle : s.relay.worker = .idle)
    (houtbox : s.relay.outbox = .shutdown ticket :: rest) :
    ({ s with
      relay := { s.relay with
        outbox := rest, accepting := false, stopping := s.relay.stopping ++ [ticket] } } :
      Session).Sound config (before ++ [.shutdown ticket]) := by
  have hticket := hs.ticket_eq hidle houtbox rfl
  have hreturned := hs.returned_eq_none (by simp [hidle])
  refine { hs with
    sent := ?_, events := ?_, closed := ?_, stopped := by simp [hidle], reached := ?_
    flushed := ?_, returned := by simp [hreturned] }
  · simp [hidle, Worker.inHand, hs.sent_of_idle hidle, houtbox]
  · simp [hs.events, Outgoing.event?]
  · simp
  · intro other hother
    rw [List.length_append, List.length_singleton]
    rcases List.mem_append.mp ((List.append_assoc ..).symm ▸ hother) with hold | hnew
    · exact Nat.lt_succ_of_lt (hs.reached other hold)
    · exact List.mem_singleton.mp hnew ▸ hticket ▸ Nat.lt_succ_self _
  · intro other hother
    exact hs.flushed other (by simpa using hother)

theorem receive (hs : s.Sound config before) (hidle : s.relay.worker = .idle) :
    ∃ before', before <+: before' ∧
      ({ s with relay := s.relay.receive } : Session).Sound config before' := by
  rcases s.relay.receive_cases with ⟨-, -, hreceive⟩ | ⟨houtbox, hclosed, hreceive⟩ |
    ⟨e, rest, houtbox, hreceive⟩ | ⟨ticket, rest, houtbox, hreceive⟩ |
    ⟨ticket, rest, houtbox, hreceive⟩
  · rw [hreceive]
    exact ⟨before, List.prefix_refl _, hs⟩
  · rw [hreceive]
    exact ⟨before, List.prefix_refl _, hs.stop hidle houtbox hclosed⟩
  · rw [hreceive]
    exact ⟨before, List.prefix_refl _, hs.receive_event hidle houtbox⟩
  · rw [hreceive]
    exact ⟨_, List.prefix_append _ _, hs.receive_flush hidle houtbox⟩
  · rw [hreceive]
    exact ⟨_, List.prefix_append _ _, hs.receive_shutdown hidle houtbox⟩

end Receive

section Attempt

theorem ended (hs : s.Sound config before) (hworker : s.relay.worker = .attempting e failed left)
    {outcome : Except PublishError Unit} {d : Delivery} (hevent : d.event = e)
    (hcomplete : d.Complete config.attempts)
    (hoffers : d.offers = refusals e s.failures ++ [(e, outcome)]) :
    ({ s with
      relay := { s.relay with
        worker := .idle
        deadLetters := s.relay.deadLetters ++ if d.published then [] else [e] }
      offers := s.offers ++ [(e, outcome)], failures := [], handled := s.handled ++ [d] } :
      Session).Sound config (before ++ [.event e]) := by
  have hreturned := hs.returned_eq_none (by simp [hworker])
  refine { hs with
    sent := ?_, events := ?_, complete := ?_, carries := rfl, offers := ?_, letters := ?_
    closed := ?_, stopped := nofun, reached := ?_, flushed := ?_, returned := by simp [hreturned] }
  · simpa [hworker, Worker.inHand] using hs.sent
  · simp [hs.events, Outgoing.event?, hevent]
  · simp only [List.mem_append, List.mem_singleton]
    rintro d' (hd | rfl)
    · exact hs.complete d' hd
    · exact hcomplete
  · simp [hs.offers, hworker, Worker.inHand, hoffers]
  · rw [exhausted_append, ← hs.letters, hevent, List.append_assoc]
  · simp [hs.closed]
  · intro ticket hticket
    exact List.length_append ▸ Nat.lt_add_right _ (hs.reached ticket hticket)
  · intro ticket hticket
    exact hs.flushed ticket (by simpa using hticket)

theorem refused (hs : s.Sound config before) {rest : Nat}
    (hworker : s.relay.worker = .attempting e failed (rest + 1)) (cause : PublishError) :
    ({ s with
      relay := { s.relay with worker := .backingOff e (failed + 1) rest }
      offers := s.offers ++ [(e, .error cause)], failures := s.failures ++ [cause] } :
      Session).Sound config before := by
  have hcarries : s.failures.length = failed ∧ failed + (rest + 1) + 1 = config.attempts := by
    simpa [hworker, Worker.Carries] using hs.carries
  have hreturned := hs.returned_eq_none (by simp [hworker])
  refine { hs with
    sent := ?_, carries := ?_, offers := ?_, stopped := nofun, returned := by simp [hreturned] }
  · simpa [hworker, Worker.inHand] using hs.sent
  · simp only [Worker.Carries, List.length_append, List.length_singleton]
    omega
  · simp [hs.offers, hworker, Worker.inHand, refusals]

theorem learn (hs : s.Sound config before) (hworker : s.relay.worker = .attempting e failed left)
    (outcome : Except PublishError Unit) :
    ∃ before', before <+: before' ∧ (s.learn e outcome).Sound config before' := by
  have hcarries : s.failures.length = failed ∧ failed + left + 1 = config.attempts := by
    simpa [hworker, Worker.Carries] using hs.carries
  rcases learn_cases hworker outcome with
    ⟨rfl, hlearn⟩ | ⟨cause, rfl, rfl, hlearn⟩ | ⟨cause, rest, rfl, rfl, hlearn⟩
  · have hcomplete : Delivery.Complete config.attempts ⟨e, s.failures, true⟩ := by
      simp only [Delivery.Complete, if_true]
      omega
    rw [hlearn]
    exact ⟨_, List.prefix_append _ _, by simpa using hs.ended hworker rfl hcomplete rfl⟩
  · have hcomplete : Delivery.Complete config.attempts ⟨e, s.failures ++ [cause], false⟩ := by
      simp only [Delivery.Complete, Bool.false_eq_true, if_false, List.length_append,
        List.length_singleton]
      omega
    rw [hlearn]
    exact ⟨_, List.prefix_append _ _, hs.ended hworker rfl hcomplete
      (by simp [Delivery.offers, refusals])⟩
  · rw [hlearn]
    exact ⟨before, List.prefix_refl _, hs.refused hworker cause⟩

theorem wake (hs : s.Sound config before) (hworker : s.relay.worker = .backingOff e failed left) :
    ({ s with relay := s.relay.wake } : Session).Sound config before := by
  have hreturned := hs.returned_eq_none (by simp [hworker])
  rw [wake_of_backingOff hworker]
  refine { hs with
    sent := ?_, carries := ?_, offers := ?_, stopped := nofun, returned := by simp [hreturned] }
  · simpa [hworker, Worker.inHand] using hs.sent
  · simpa [hworker, Worker.Carries] using hs.carries
  · simpa [hworker, Worker.inHand] using hs.offers

end Attempt

theorem takeDeadLetters (hs : s.Sound config before) (hreturned : s.returned = none) :
    ({ s with
      relay := s.relay.takeDeadLetters.1
      taken := s.taken ++ [s.relay.takeDeadLetters.2] } : Session).Sound config before := by
  refine { hs with letters := ?_, returned := by simp [hreturned] }
  simpa [Relay.takeDeadLetters] using hs.letters

theorem step {m : Move} (hs : s.Sound config before) (hstep : s.step m = some s') :
    ∃ before', before <+: before' ∧ s'.Sound config before' := by
  cases moves_of_step hstep with
  | notify e => exact ⟨before, List.prefix_refl _, hs.post nofun⟩
  | flush | shutdown =>
      exact ⟨before, List.prefix_refl _, hs.post (by rintro ticket ⟨⟩; rfl)⟩
  | receive hidle => exact hs.receive hidle
  | attempt outcome hworker => exact hs.learn hworker outcome
  | wake hworker => exact ⟨before, List.prefix_refl _, hs.wake hworker⟩
  | deadLetters => exact ⟨before, List.prefix_refl _, hs⟩
  | takeDeadLetters hpresent => exact ⟨before, List.prefix_refl _, hs.takeDeadLetters hpresent⟩
  | leave hstopped =>
      refine ⟨before, List.prefix_refl _, { hs with returned := ?_ }⟩
      rintro letters ⟨⟩
      exact ⟨hstopped, rfl⟩

theorem run {moves : List Move} (hs : s.Sound config before) (hrun : s.run moves = some s') :
    ∃ before', before <+: before' ∧ s'.Sound config before' := by
  induction moves generalizing s before with
  | nil =>
      cases hrun
      exact ⟨before, List.prefix_refl _, hs⟩
  | cons m rest ih =>
      obtain ⟨s₁, hstep, hrest⟩ := run_cons hrun
      obtain ⟨before₁, hle, hs₁⟩ := hs.step hstep
      obtain ⟨before', hle', hs'⟩ := ih hs₁ hrest
      exact ⟨before', hle.trans hle', hs'⟩

end Sound

end Relay.Session

end Ledger
