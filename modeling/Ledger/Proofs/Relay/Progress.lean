import Ledger.Proofs.Relay.Handling

namespace Ledger.Relay.Session

variable {config : RelayConfig} {before before' : List Outgoing} {s s' : Session} {n : Nat}

/-- The most steps in which the worker is through with the first `n` messages. -/
def backlog (s : Session) (n : Nat) : Nat :=
  (s.relay.truncate (n - s.received.length)).load

namespace Sound

theorem received_eq (hs : s.Sound config before) :
    s.received = before ++ s.relay.worker.inHand.map .event :=
  received_of_sent hs.sent

theorem length_sent (hs : s.Sound config before) :
    s.sent.length = s.received.length + s.relay.outbox.length := by
  rw [hs.received_eq, hs.sent, List.length_append]

theorem backlog_length_sent (hs : s.Sound config before) :
    s.backlog s.sent.length = s.relay.load := by
  rw [backlog, truncate, hs.length_sent, Nat.add_sub_cancel_left, List.take_length]

theorem backlog_post (hs : s.Sound config before) (hn : n ≤ s.sent.length) (m : Outgoing) :
    (s.post m).backlog n = s.backlog n := by
  by_cases haccepting : s.relay.accepting = true
  · have hreceived : (s.post m).received = s.received := by
      rw [hs.received_eq, post_of_accepting haccepting]
      apply received_of_sent
      rw [hs.sent, List.append_assoc]
    have hle : n - s.received.length ≤ s.relay.outbox.length := by
      have hlength := hs.length_sent
      omega
    rw [backlog, truncate, hreceived, post_of_accepting haccepting,
      List.take_append_of_le_length hle]
    rfl
  · rw [post_of_closed (by simpa using haccepting)]

theorem received_receive {m : Outgoing} {rest : List Outgoing} (hs : s.Sound config before)
    (hidle : s.relay.worker = .idle) (houtbox : s.relay.outbox = m :: rest) :
    ({ s with relay := s.relay.receive } : Session).received = s.received ++ [m] := by
  have hreceived : s.received = before := by simpa [hidle, Worker.inHand] using hs.received_eq
  apply received_of_sent
  rw [outbox_receive_of_cons houtbox, hreceived, hs.sent_of_idle hidle, houtbox]
  simp

theorem backlog_receive (hs : s.Sound config before) (hidle : s.relay.worker = .idle)
    (hpos : 0 < s.backlog n) :
    ({ s with relay := s.relay.receive } : Session).backlog n < s.backlog n := by
  unfold backlog at hpos ⊢
  obtain ⟨k, hk⟩ : ∃ k, n - s.received.length = k + 1 := by
    apply Nat.exists_eq_succ_of_ne_zero
    intro hzero
    simp [load, truncate, hzero, hidle, Worker.steps] at hpos
  cases houtbox : s.relay.outbox with
  | nil => simp [load, truncate, houtbox, hidle, Worker.steps] at hpos
  | cons m rest =>
      have hlater : n - (s.received ++ [m]).length = k := by
        rw [List.length_append, List.length_singleton]
        omega
      rw [hs.received_receive hidle houtbox, hlater, truncate_receive houtbox, hk]
      rw [hk] at hpos
      exact load_receive_lt hidle hpos

theorem backlog_learn {e : Event} {failed left : Nat}
    (h : s.relay.worker = .attempting e failed left) (outcome : Except PublishError Unit) :
    (s.learn e outcome).backlog n < s.backlog n := by
  unfold backlog received
  rw [sent_learn, relay_learn, outbox_settle, truncate_settle]
  exact load_settle_lt (r := s.relay.truncate _) h outcome

theorem backlog_wake {e : Event} {failed left : Nat}
    (h : s.relay.worker = .backingOff e failed left) :
    ({ s with relay := s.relay.wake } : Session).backlog n < s.backlog n := by
  unfold backlog received
  simp only [outbox_wake, truncate_wake]
  exact load_wake_lt (r := s.relay.truncate _) h

theorem backlog_step {m : Move} (hs : s.Sound config before) (hn : n ≤ s.sent.length)
    (hpos : 0 < s.backlog n) (hstep : s.step m = some s') :
    s'.backlog n + (if m.isWork then 1 else 0) ≤ s.backlog n := by
  cases moves_of_step hstep with
  | notify | flush | shutdown => exact Nat.le_of_eq (hs.backlog_post hn _)
  | receive hidle => exact hs.backlog_receive hidle hpos
  | attempt outcome hworker => exact backlog_learn hworker outcome
  | wake hworker => exact backlog_wake hworker
  | deadLetters | takeDeadLetters | leave => exact Nat.le_refl _

theorem take_prefix_of_backlog (hs : s.Sound config before) (hn : n ≤ s.sent.length)
    (h : s.backlog n = 0) : s.sent.take n <+: before := by
  obtain ⟨hhand, houtbox⟩ := pending_of_load h
  have hhand : s.relay.worker.inHand = [] := hhand
  have hreceived : s.received = before := by simpa [hhand] using hs.received_eq
  have hle : n ≤ s.received.length := by
    have hlength := hs.length_sent
    have htake := congrArg List.length houtbox
    simp only [truncate, List.length_take, List.length_nil] at htake
    omega
  have hsent : s.sent = before ++ s.relay.outbox := by simpa [hhand] using hs.sent
  rw [hsent, List.take_append_of_le_length (hreceived ▸ hle)]
  exact List.take_prefix n before

/-- After as many steps as its backlog takes, the worker is through with the first `n` messages,
whatever else happens meanwhile. -/
theorem take_prefix_of_run {moves : List Move} (hs : s.Sound config before)
    (hn : n ≤ s.sent.length) (hrun : s.run moves = some s')
    (hwork : s.backlog n ≤ moves.countP Move.isWork) :
    ∃ before', s'.Sound config before' ∧ s.sent.take n <+: before' := by
  induction moves generalizing s before with
  | nil =>
      cases hrun
      exact ⟨before, hs, hs.take_prefix_of_backlog hn (Nat.le_zero.mp hwork)⟩
  | cons m rest ih =>
      rcases Nat.eq_zero_or_pos (s.backlog n) with hzero | hpos
      · obtain ⟨before', hle, hs'⟩ := hs.run hrun
        exact ⟨before', hs', (hs.take_prefix_of_backlog hn hzero).trans hle⟩
      · obtain ⟨s₁, hstep, hrest⟩ := run_cons hrun
        obtain ⟨before₁, -, hs₁⟩ := hs.step hstep
        have hless := hs.backlog_step hn hpos hstep
        obtain ⟨later, hsent⟩ := sent_step hstep
        have hn₁ : n ≤ s₁.sent.length := by
          rw [← hsent, List.length_append]
          omega
        rw [List.countP_cons] at hwork
        obtain ⟨before', hs', hfirst⟩ := ih hs₁ hn₁ hrest (by omega)
        rw [← hsent, List.take_append_of_le_length hn] at hfirst
        exact ⟨before', hs', hfirst⟩

end Sound

end Ledger.Relay.Session
