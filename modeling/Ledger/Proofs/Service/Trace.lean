import Ledger.Proofs.Service.Journal
import Mathlib.Data.List.Forall2

namespace Ledger.Service

/-- An answer that was given in the place of another one: the same, or that the bus refused the
announcement. -/
structure Reported (a b : Answered) : Prop where
  request : a.request = b.request
  before : a.before = b.before
  after : a.after = b.after
  result : a.result = b.result ∨ ∃ reply e, b.result = .ok reply ∧ reply.event? = some e ∧
    a.result = .error (.publishFailure e.topic (Publisher.rejection e.message))

theorem Reported.refl (a : Answered) : Reported a a :=
  ⟨rfl, rfl, rfl, .inl rfl⟩

/-- The worker of the relay takes a step. -/
def work (s : Service) : Service × List Verdict :=
  match s.relay with
  | none => (s, [])
  | some relay =>
      let (relay, publisher, verdicts) := relay.work s.publisher
      ({ s with publisher, relay := some relay }, verdicts)

/-- What becomes of the events that a flush waits for. -/
def flushed (s : Service) : List Verdict :=
  match s.relay with
  | none => []
  | some relay => (relay.toil s.publisher (relay.load + 1)).2.2

/-- A service with what has been seen of it: its answers, what has become of the events that the
relay is done with, and the dead letters that were taken away. -/
structure Trace where
  service : Service
  answers : List Answered := []
  handled : List Verdict := []
  taken : List Event := []

namespace Trace

def step (t : Trace) : Act → Trace
  | .call now r =>
      let (service, result) := t.service.call now r
      { t with
        service
        answers := t.answers ++ [⟨r, t.service.store.tables, service.store.tables, result⟩] }
  | .expire r =>
      match expiry? t.service.config r with
      | some e =>
          let tables := t.service.store.tables
          { t with answers := t.answers ++ [⟨r, tables, tables, .error e⟩] }
      | none => t
  | .setOnline online =>
      { t with service := { t.service with publisher := t.service.publisher.setOnline online } }
  | .failNext count =>
      { t with service := { t.service with publisher := t.service.publisher.failNext count } }
  | .work =>
      let (service, verdicts) := t.service.work
      { t with service, handled := t.handled ++ verdicts }
  | .flush => { t with service := t.service.flush, handled := t.handled ++ t.service.flushed }
  | .takeDeadLetters =>
      let (service, letters) := t.service.takeDeadLetters
      { t with service, taken := t.taken ++ letters }

/-- All that can be seen of a service that is used in the given way. -/
def run (config : Config) (acts : List Act) : Trace :=
  acts.foldl step { service := .start config }

/-- The rows that were written are announced by the relay. -/
structure Deferred (config : Config) (g : Journal) (t : Trace) : Prop where
  config : t.service.config = config
  store : t.service.store = { tables := g.tables }
  answers : t.answers = g.answers
  relay : ∃ relay, t.service.relay = some relay ∧
    relay.Tally g.news t.handled t.taken t.service.publisher

/-- The rows that were written are announced inside the calls. -/
structure Inline (config : Config) (g : Journal) (t : Trace) : Prop where
  config : t.service.config = config
  store : t.service.store = { tables := g.tables }
  relay : t.service.relay = none
  answers : List.Forall₂ Reported t.answers g.answers
  published : t.service.publisher.published =
    ((t.answers.filter (·.result.isOk)).flatMap (·.news)).map (·.message)

variable {config : Config} {now : Timestamp} {g : Journal} {t : Trace} {s : Service} {r : Request}
  {reply : Reply} {e : LedgerError} {t' : Tables}

theorem call_of_error (hstore : s.store = { tables := g.tables })
    (houtcome : r.outcome s.config now g.tables = (g.tables, .error e)) :
    s.call now r = (s, .error e) := by
  rw [call_eq hstore, houtcome, ← hstore]

theorem call_of_ok (hstore : s.store = { tables := g.tables })
    (houtcome : r.outcome s.config now g.tables = (t', .ok reply)) :
    s.call now r = ({ s with store := { tables := t' } } : Service).report reply := by
  rw [call_eq hstore, houtcome]

theorem report_of_tally {accepted taken : List Event} {handled : List Verdict} {relay : Relay}
    (hrelay : s.relay = some relay) (h : relay.Tally accepted handled taken s.publisher)
    (reply : Reply) :
    ∃ relay', s.report reply = ({ s with relay := some relay' }, .ok reply) ∧
      relay'.Tally (accepted ++ reply.event?.toList) handled taken s.publisher := by
  unfold report
  cases reply.event? with
  | none =>
      refine ⟨relay, ?_, by simpa using h⟩
      rw [← hrelay]
  | some e =>
      obtain ⟨relay', hsend, htally⟩ := h.post e
      refine ⟨relay', ?_, htally⟩
      simp only [announce, hrelay, hsend]
      rfl

theorem report_of_inline (hrelay : s.relay = none) (reply : Reply) :
    ∃ publisher, (s.report reply).1 = { s with publisher } ∧
      (((s.report reply).2 = .ok reply ∧
          publisher.published = s.publisher.published ++ reply.event?.toList.map (·.message)) ∨
        ∃ e, reply.event? = some e ∧
          (s.report reply).2 =
            .error (.publishFailure e.topic (Publisher.rejection e.message)) ∧
          publisher.published = s.publisher.published) := by
  unfold report
  cases reply.event? with
  | none => exact ⟨s.publisher, rfl, .inl ⟨rfl, (List.append_nil _).symm⟩⟩
  | some e =>
      simp only [announce, hrelay]
      refine ⟨(s.publisher.publish e.message).1, rfl, ?_⟩
      rcases s.publisher.publish_cases e.message with ⟨hok, hpublished⟩ | ⟨herror, hpublished⟩
      · rw [hok]
        exact .inl ⟨rfl, hpublished⟩
      · rw [herror]
        exact .inr ⟨e, rfl, rfl, hpublished⟩

/-- A trace with one more answer, of a call that failed before anything was written. -/
def refuse (t : Trace) (r : Request) (e : LedgerError) : Trace :=
  { t with answers := t.answers ++ [⟨r, t.service.store.tables, t.service.store.tables, .error e⟩] }

theorem step_call_of_error (hstore : t.service.store = { tables := g.tables })
    (houtcome : r.outcome t.service.config now g.tables = (g.tables, .error e)) :
    t.step (.call now r) = t.refuse r e := by
  simp only [step, call_of_error hstore houtcome, refuse]

theorem follows {P : Journal → Trace → Prop}
    (hstep : ∀ {g : Journal} {t : Trace}, P g t → ∀ act, P (g.step config act) (t.step act))
    (h : P g t) (acts : List Act) :
    P (acts.foldl (Journal.step config) g) (acts.foldl Trace.step t) := by
  induction acts generalizing g t with
  | nil => exact h
  | cons act rest ih => exact ih (hstep h act)

namespace Deferred

theorem start (hmode : config.publishMode = .deferred) :
    Deferred config {} { service := .start config } where
  config := rfl
  store := rfl
  answers := rfl
  relay := ⟨_, by rw [Service.start, if_pos hmode], .start config.relay rfl⟩

theorem refuse (h : Deferred config g t) (r : Request) (e : LedgerError) :
    Deferred config (g.refuse r e) (t.refuse r e) where
  config := h.config
  store := h.store
  answers := by rw [Trace.refuse, h.store, h.answers, Journal.refuse, Journal.add]
  relay := g.news_refuse r e ▸ h.relay

theorem call (h : Deferred config g t) (now : Timestamp) (r : Request) :
    Deferred config (g.step config (.call now r)) (t.step (.call now r)) := by
  rcases r.outcome_cases config now g.tables with ⟨e, -, houtcome⟩ |
    ⟨reply, t', houtcome, heffect⟩
  · rw [step_call_of_error h.store (h.config ▸ houtcome), Journal.step_call_of_error houtcome]
    exact h.refuse r e
  · obtain ⟨relay, hrelay, htally⟩ := h.relay
    obtain ⟨relay', hreport, htally'⟩ := report_of_tally
      (s := { t.service with store := { tables := t' } }) hrelay htally reply
    rw [Journal.step_call_of_ok houtcome]
    simp only [Trace.step, call_of_ok h.store (h.config ▸ houtcome), hreport]
    refine ⟨h.config, rfl, ?_, relay', rfl, ?_⟩
    · rw [h.store, h.answers]
      rfl
    · rw [Journal.news_add, Answered.news, heffect.news]
      exact htally'

theorem step (h : Deferred config g t) (act : Act) :
    Deferred config (g.step config act) (t.step act) := by
  obtain ⟨relay, hrelay, htally⟩ := h.relay
  cases act with
  | call now r => exact h.call now r
  | expire r =>
      rw [Journal.step, Trace.step, h.config]
      cases expiry? config r with
      | some e => exact h.refuse r e
      | none => exact h
  | setOnline online => exact { h with relay := ⟨relay, hrelay, htally.setBus rfl⟩ }
  | failNext count => exact { h with relay := ⟨relay, hrelay, htally.setBus rfl⟩ }
  | work =>
      simp only [Trace.step, Service.work, hrelay]
      exact { h with relay := ⟨_, rfl, htally.work⟩ }
  | flush =>
      simp only [Trace.step, Service.flush, flushed, hrelay]
      rw [← relay.toil_eq_drain _ _ (Nat.lt_succ_self _)]
      exact { h with relay := ⟨_, rfl, htally.toil _⟩ }
  | takeDeadLetters =>
      simp only [Trace.step, Service.takeDeadLetters, Service.deadLetters, hrelay]
      exact { h with relay := ⟨_, rfl, htally.take⟩ }

theorem run (hmode : config.publishMode = .deferred) (acts : List Act) :
    Deferred config (Journal.run config acts) (Trace.run config acts) :=
  follows (fun h act => h.step act) (start hmode) acts

end Deferred

namespace Inline

theorem start (hmode : config.publishMode = .inline) :
    Inline config {} { service := .start config } where
  config := rfl
  store := rfl
  relay := by rw [Service.start, hmode, if_neg nofun]
  answers := .nil
  published := rfl

theorem refuse (h : Inline config g t) (r : Request) (e : LedgerError) :
    Inline config (g.refuse r e) (t.refuse r e) where
  config := h.config
  store := h.store
  relay := h.relay
  answers := by
    refine List.rel_append h.answers (.cons ?_ .nil)
    rw [h.store]
    exact .refl _
  published := by
    rw [Trace.refuse, List.filter_append]
    simpa [Except.isOk, Except.toBool] using h.published

theorem call (h : Inline config g t) (now : Timestamp) (r : Request) :
    Inline config (g.step config (.call now r)) (t.step (.call now r)) := by
  rcases r.outcome_cases config now g.tables with ⟨e, -, houtcome⟩ |
    ⟨reply, t', houtcome, heffect⟩
  · rw [step_call_of_error h.store (h.config ▸ houtcome), Journal.step_call_of_error houtcome]
    exact h.refuse r e
  · rw [Journal.step_call_of_ok houtcome]
    have hcall : t.service.call now r = { t.service with store := { tables := t' } }.report reply :=
      call_of_ok h.store (h.config ▸ houtcome)
    obtain ⟨publisher, hreport, hcases⟩ := report_of_inline
      (s := { t.service with store := { tables := t' } }) h.relay reply
    simp only [Trace.step, hcall, hreport, Journal.add, h.store]
    rcases hcases with ⟨hok, hpublished⟩ | ⟨e, hevent, herror, hpublished⟩
    · rw [hok]
      refine ⟨h.config, rfl, h.relay, List.rel_append h.answers (.cons (.refl _) .nil), ?_⟩
      rw [hpublished, h.published, List.filter_append, ← heffect.news]
      simp [Except.isOk, Except.toBool, Answered.news]
    · rw [herror]
      have hreported : Reported
          ⟨r, g.tables, t', .error (.publishFailure e.topic (Publisher.rejection e.message))⟩
          ⟨r, g.tables, t', .ok reply⟩ := ⟨rfl, rfl, rfl, .inr ⟨reply, e, rfl, hevent, rfl⟩⟩
      refine ⟨h.config, rfl, h.relay, List.rel_append h.answers (.cons hreported .nil), ?_⟩
      rw [hpublished, h.published, List.filter_append]
      simp [Except.isOk, Except.toBool]

theorem step (h : Inline config g t) (act : Act) :
    Inline config (g.step config act) (t.step act) := by
  cases act with
  | call now r => exact h.call now r
  | expire r =>
      rw [Journal.step, Trace.step, h.config]
      cases expiry? config r with
      | some e => exact h.refuse r e
      | none => exact h
  | setOnline | failNext => exact { h with }
  | work =>
      simp only [Trace.step, Service.work, h.relay]
      exact { h with }
  | flush =>
      simp only [Trace.step, Service.flush, h.relay]
      exact { h with }
  | takeDeadLetters =>
      simp only [Trace.step, Service.takeDeadLetters, h.relay]
      exact { h with relay := rfl }

theorem run (hmode : config.publishMode = .inline) (acts : List Act) :
    Inline config (Journal.run config acts) (Trace.run config acts) :=
  follows (fun h act => h.step act) (start hmode) acts

end Inline

/-- The tables and the answers, in either mode. -/
theorem reported (config : Config) (acts : List Act) :
    (run config acts).service.store = { tables := (Journal.run config acts).tables } ∧
      List.Forall₂ Reported (run config acts).answers (Journal.run config acts).answers := by
  cases hmode : config.publishMode with
  | deferred =>
      have h := Deferred.run hmode acts
      refine ⟨h.store, ?_⟩
      rw [h.answers]
      exact List.forall₂_same.mpr fun a _ => .refl a
  | inline =>
      have h := Inline.run hmode acts
      exact ⟨h.store, h.answers⟩

end Trace

end Ledger.Service
