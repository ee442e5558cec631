import Ledger.Proofs.Publisher
import Ledger.Proofs.Relay.Pending
import Ledger.Relay

namespace Ledger

theorem Publisher.publish_cases (p : Publisher) (m : Message) :
    ((p.publish m).2 = .ok () ∧ (p.publish m).1.published = p.published ++ [m]) ∨
      ((p.publish m).2 = .error (rejection m) ∧ (p.publish m).1.published = p.published) := by
  rcases p.publish_outcomes m with ⟨-, heq⟩ | ⟨-, -, heq⟩ | ⟨left, -, -, heq⟩ <;> rw [heq]
  · exact .inr ⟨rfl, rfl⟩
  · exact .inl ⟨rfl, rfl⟩
  · exact .inr ⟨rfl, rfl⟩

/-- What has become of an event that the worker of a relay is done with. -/
structure Verdict where
  event : Event
  published : Bool
deriving DecidableEq

namespace Verdict

/-- The messages of the events that were published. -/
def messages (vs : List Verdict) : List Message :=
  (vs.filter (·.published)).map (·.event.message)

/-- The events that were given up. -/
def givenUp (vs : List Verdict) : List Event :=
  (vs.filter fun v => !v.published).map (·.event)

variable {vs : List Verdict} {e : Event}

theorem messages_published : messages (vs ++ [⟨e, true⟩]) = messages vs ++ [e.message] := by
  simp [messages]

theorem messages_givenUp : messages (vs ++ [⟨e, false⟩]) = messages vs := by
  simp [messages]

theorem givenUp_published : givenUp (vs ++ [⟨e, true⟩]) = givenUp vs := by
  simp [givenUp]

theorem givenUp_givenUp : givenUp (vs ++ [⟨e, false⟩]) = givenUp vs ++ [e] := by
  simp [givenUp]

end Verdict

namespace Relay

/-- One step of the worker, with the answer of the bus if it makes an attempt. An attempt that
leaves it idle tells what has become of the event. -/
def work (r : Relay) (p : Publisher) : Relay × Publisher × List Verdict :=
  match r.worker with
  | .idle => (r.receive, p, [])
  | .attempting e _ _ =>
      let (p, outcome) := p.publish e.message
      let r := r.settle outcome
      (r, p, if r.worker = .idle then [⟨e, outcome.isOk⟩] else [])
  | .backingOff .. => (r.wake, p, [])
  | .stopped => (r, p, [])

/-- Some steps of the worker. -/
def toil (r : Relay) (p : Publisher) : Nat → Relay × Publisher × List Verdict
  | 0 => (r, p, [])
  | n + 1 =>
      let (r, p, verdicts) := r.work p
      let (r, p, later) := r.toil p n
      (r, p, verdicts ++ later)

variable {r : Relay} {p : Publisher} {n : Nat}

theorem isQuiet_receive (hworker : r.worker = .idle) (houtbox : r.outbox = []) :
    r.receive.isQuiet = true := by
  simp only [receive, houtbox]
  split
  · rename_i haccepting
    simp [isQuiet, hworker, houtbox, haccepting]
  · rfl

theorem isQuiet_drain (r : Relay) (p : Publisher) : (r.drain p).1.isQuiet = true := by
  fun_induction drain r p with
  | case1 r p hworker => rw [isQuiet, hworker]
  | case2 r p e failed left hworker offered ih => exact ih
  | case3 r p e failed left hworker ih => exact ih
  | case4 r p hworker houtbox => exact isQuiet_receive hworker houtbox
  | case5 r p hworker m rest houtbox ih => exact ih

theorem work_of_isQuiet (h : r.isQuiet = true) (p : Publisher) : r.work p = (r, p, []) := by
  unfold isQuiet at h
  unfold work
  split at h
  · rename_i hworker
    obtain ⟨houtbox, haccepting⟩ := by simpa using h
    simp only [hworker, receive, houtbox, haccepting, if_true]
  · rename_i hworker
    simp only [hworker]
  · cases h

theorem toil_of_isQuiet (h : r.isQuiet = true) (p : Publisher) (n : Nat) :
    r.toil p n = (r, p, []) := by
  induction n with
  | zero => rfl
  | succ n ih => simp only [toil, work_of_isQuiet h, ih, List.append_nil]

/-- One step more than there is work for drains the relay. -/
theorem toil_eq_drain (r : Relay) (p : Publisher) :
    ∀ n, r.load < n → ((r.toil p n).1, (r.toil p n).2.1) = r.drain p := by
  fun_induction drain r p with
  | case1 r p hworker =>
      intro n _
      have hquiet : r.isQuiet = true := by rw [isQuiet, hworker]
      rw [toil_of_isQuiet hquiet]
  | case2 r p e failed left hworker offered ih =>
      intro n hn
      have hless := load_settle_lt hworker offered.2
      obtain ⟨k, rfl⟩ : ∃ k, n = k + 1 := Nat.exists_eq_succ_of_ne_zero (by omega)
      simp only [toil, work, hworker]
      exact ih k (by omega)
  | case3 r p e failed left hworker ih =>
      intro n hn
      have hless := load_wake_lt hworker
      obtain ⟨k, rfl⟩ : ∃ k, n = k + 1 := Nat.exists_eq_succ_of_ne_zero (by omega)
      simp only [toil, work, hworker]
      exact ih k (by omega)
  | case4 r p hworker houtbox =>
      intro n hn
      obtain ⟨k, rfl⟩ : ∃ k, n = k + 1 := Nat.exists_eq_succ_of_ne_zero (by omega)
      simp only [toil, work, hworker, toil_of_isQuiet (isQuiet_receive hworker houtbox)]
  | case5 r p hworker m rest houtbox ih =>
      intro n hn
      have hpos : 0 < r.load := by
        apply Nat.pos_of_ne_zero
        intro hzero
        simp [(pending_of_load hzero).2] at houtbox
      have hless := load_receive_lt hworker hpos
      obtain ⟨k, rfl⟩ : ∃ k, n = k + 1 := Nat.exists_eq_succ_of_ne_zero (by omega)
      simp only [toil, work, hworker]
      exact ih k (by omega)

/-- A relay that has only been sent events, with those it accepted, those its worker is done with,
the dead letters that were taken away, and the bus that only it publishes on. -/
structure Tally (accepted : List Event) (handled : List Verdict) (taken : List Event) (r : Relay)
    (p : Publisher) : Prop where
  accepting : r.accepting = true
  running : r.worker ≠ .stopped
  outbox : ∀ m ∈ r.outbox, m.event? ≠ none
  accepted : accepted = handled.map (·.event) ++ r.pending
  published : p.published = Verdict.messages handled
  letters : taken ++ r.deadLetters = Verdict.givenUp handled

namespace Tally

variable {accepted taken : List Event} {handled : List Verdict} {e : Event}

theorem start (config : RelayConfig) (hp : p.published = []) : Tally [] [] [] { config } p where
  accepting := rfl
  running := nofun
  outbox := nofun
  accepted := rfl
  published := hp
  letters := rfl

theorem setBus {p' : Publisher} (h : Tally accepted handled taken r p)
    (hp : p'.published = p.published) : Tally accepted handled taken r p' :=
  { h with published := hp.trans h.published }

theorem post (h : Tally accepted handled taken r p) (e : Event) :
    ∃ r', r.send? (.event e) = some r' ∧ Tally (accepted ++ [e]) handled taken r' p := by
  have hsend := send?_of_accepting h.accepting (.event e)
  refine ⟨_, hsend, { h with outbox := ?_, accepted := ?_ }⟩
  · intro m hm
    rcases List.mem_append.mp hm with hold | hnew
    · exact h.outbox m hold
    · rw [List.mem_singleton.mp hnew]
      exact nofun
  · rw [pending_send? hsend, ← List.append_assoc, ← h.accepted]
    rfl

theorem take (h : Tally accepted handled taken r p) :
    Tally accepted handled (taken ++ r.deadLetters) r.takeDeadLetters.1 p :=
  { h with letters := by simpa [takeDeadLetters] using h.letters }

theorem receive (h : Tally accepted handled taken r p) (hidle : r.worker = .idle) :
    Tally accepted handled taken r.receive p := by
  have haccepted : accepted = handled.map (·.event) ++ r.receive.pending := by
    rw [pending_receive hidle, ← h.accepted]
  rcases r.receive_cases with ⟨-, -, hreceive⟩ | ⟨-, hclosed, -⟩ |
    ⟨e, rest, houtbox, hreceive⟩ | ⟨ticket, rest, houtbox, -⟩ | ⟨ticket, rest, houtbox, -⟩
  · rw [hreceive]
    exact h
  · rw [h.accepting] at hclosed
    cases hclosed
  · rw [hreceive] at haccepted ⊢
    refine { h with running := nofun, accepted := haccepted, outbox := ?_ }
    intro m hm
    exact h.outbox m (houtbox ▸ List.mem_cons_of_mem _ hm)
  · exact absurd rfl (h.outbox (.flush ticket) (houtbox ▸ List.mem_cons_self))
  · exact absurd rfl (h.outbox (.shutdown ticket) (houtbox ▸ List.mem_cons_self))

theorem attempt {failed left : Nat} (h : Tally accepted handled taken r p)
    (hworker : r.worker = .attempting e failed left) :
    Tally accepted
      (handled ++ if (r.settle (p.publish e.message).2).worker = .idle then
        [⟨e, (p.publish e.message).2.isOk⟩] else [])
      taken (r.settle (p.publish e.message).2) (p.publish e.message).1 := by
  have haccepted := h.accepted
  simp only [pending, hworker, Worker.inHand] at haccepted
  rcases p.publish_cases e.message with ⟨hok, hpublished⟩ | ⟨herror, hpublished⟩
  · rcases settle_cases hworker (.ok ()) with ⟨-, hsettle⟩ | ⟨_, hcause, -⟩ | ⟨_, _, hcause, -⟩
    · rw [hok, hsettle, if_pos rfl]
      refine { h with running := by simp, accepted := ?_, published := ?_, letters := ?_ }
      · simpa [pending, Worker.inHand] using haccepted
      · rw [hpublished, h.published]
        exact Verdict.messages_published.symm
      · rw [h.letters]
        exact Verdict.givenUp_published.symm
    · cases hcause
    · cases hcause
  · rcases settle_cases hworker (.error (Publisher.rejection e.message)) with
      ⟨hcause, -⟩ | ⟨_, -, -, hsettle⟩ | ⟨_, _, -, -, hsettle⟩
    · cases hcause
    · rw [herror, hsettle, if_pos rfl]
      refine { h with running := by simp, accepted := ?_, published := ?_, letters := ?_ }
      · simpa [pending, Worker.inHand] using haccepted
      · rw [hpublished, h.published]
        exact Verdict.messages_givenUp.symm
      · rw [← List.append_assoc, h.letters]
        exact Verdict.givenUp_givenUp.symm
    · rw [herror, hsettle, if_neg (by simp), List.append_nil]
      exact { h with
        running := by simp
        accepted := haccepted
        published := hpublished.trans h.published }

theorem wake {failed left : Nat} (h : Tally accepted handled taken r p)
    (hworker : r.worker = .backingOff e failed left) :
    Tally accepted handled taken r.wake p := by
  have haccepted : accepted = handled.map (·.event) ++ r.wake.pending := by
    rw [pending_wake, ← h.accepted]
  rw [wake_of_backingOff hworker] at haccepted ⊢
  exact { h with running := nofun, accepted := haccepted }

theorem work (h : Tally accepted handled taken r p) :
    Tally accepted (handled ++ (r.work p).2.2) taken (r.work p).1 (r.work p).2.1 := by
  unfold Relay.work
  split
  · rename_i hworker
    rw [List.append_nil]
    exact h.receive hworker
  · rename_i hworker
    exact h.attempt hworker
  · rename_i hworker
    rw [List.append_nil]
    exact h.wake hworker
  · rw [List.append_nil]
    exact h

theorem toil (h : Tally accepted handled taken r p) (n : Nat) :
    Tally accepted (handled ++ (r.toil p n).2.2) taken (r.toil p n).1 (r.toil p n).2.1 := by
  induction n generalizing handled r p with
  | zero =>
      rw [Relay.toil, List.append_nil]
      exact h
  | succ n ih =>
      have hlater := ih h.work
      rw [List.append_assoc] at hlater
      exact hlater

theorem accepted_of_isQuiet (h : Tally accepted handled taken r p) (hquiet : r.isQuiet = true) :
    handled.map (·.event) = accepted := by
  have haccepted := h.accepted
  unfold isQuiet at hquiet
  split at hquiet
  · rename_i hworker
    obtain ⟨houtbox, -⟩ := by simpa using hquiet
    simpa [pending, hworker, houtbox, Worker.inHand] using haccepted.symm
  · rename_i hworker
    exact absurd hworker h.running
  · cases hquiet

end Tally

end Relay

end Ledger
