import Ledger.Proofs.Call.Orderly
import Ledger.Proofs.Store.Locks
import Ledger.Service

namespace Ledger

namespace Procedure

variable {α β : Type}

/-- The course of a procedure on one unit of work and the tables, as long as nobody else is at the
store. -/
def exec (now : Timestamp) : Procedure α → UnitOfWork → Tables → UnitOfWork × Tables × α
  | .done a, u, t => (u, t, a)
  | .call c next, u, t =>
      exec now (next (u.perform now t c).2.2) (u.perform now t c).1 (u.perform now t c).2.1

variable {now : Timestamp} {u : UnitOfWork} {t : Tables}

@[simp] theorem exec_done (a : α) : exec now (.done a) u t = (u, t, a) :=
  rfl

theorem exec_call (c : StoreCall) (next : c.Answer → Procedure α) :
    exec now (.call c next) u t =
      exec now (next (u.perform now t c).2.2) (u.perform now t c).1 (u.perform now t c).2.1 :=
  rfl

theorem exec_bind (p : Procedure α) (k : α → Procedure β) :
    exec now (p.bind k) u t =
      exec now (k (p.exec now u t).2.2) (p.exec now u t).1 (p.exec now u t).2.1 := by
  induction p generalizing u t with
  | done a => rfl
  | call c next ih =>
      rw [Program.call_bind, exec_call, ih, exec_call]

end Procedure

namespace Store

variable {s s' : Store} {u : UnitId} {now : Timestamp} {c : StoreCall} {a : c.Answer}

/-- No unit of work but the given one has been begun. -/
def Alone (s : Store) (u : UnitId) : Prop :=
  s.drop u = { tables := s.tables }

theorem drop_setUnit (s : Store) (u : UnitId) (work : UnitOfWork) :
    (s.setUnit u work).drop u = s.drop u := by
  simp [Store.drop, setUnit]

theorem unit_of_alone (h : s.Alone u) {v : UnitId} (hv : v ≠ u) : s.unit v = .closed := by
  have hunit : (s.drop u).unit v = .closed := by
    rw [show s.drop u = { tables := s.tables } from h]
    rfl
  rwa [unit_drop, if_neg hv] at hunit

theorem holds_of_isLocked (hs : s.Sound) (h : s.Alone u) {id : AccountId}
    (hlocked : s.isLocked id = true) : (s.unit u).holds id = true := by
  obtain ⟨v, hv⟩ := hs.isLocked_iff.mp hlocked
  by_cases hne : v = u
  · exact hne ▸ hv
  · rw [unit_of_alone h hne] at hv
    cases hv

theorem Alone.setUnit (h : s.Alone u) (work : UnitOfWork) : (s.setUnit u work).Alone u := by
  unfold Alone
  rw [drop_setUnit]
  exact h

theorem Alone.withTables (h : s.Alone u) (t : Tables) :
    ({ s with tables := t } : Store).Alone u := by
  unfold Alone Store.drop at h ⊢
  simp only [Store.mk.injEq, true_and] at h
  simp only [h]

theorem Alone.perform (h : s.Alone u) (hperform : s.perform u now c = some (s', a)) :
    s'.Alone u := by
  cases c with
  | saveAccount row =>
      simp only [Store.perform] at hperform
      split at hperform
      · cases hperform
        exact h
      · split at hperform
        · cases hperform
        · split at hperform
          · cases hperform
            exact h
          · cases hperform
            exact h.withTables _
  | lock id =>
      simp only [Store.perform] at hperform
      split at hperform
      · cases hperform
        exact h
      · split at hperform
        · cases hperform
          exact h
        · split at hperform
          · cases hperform
            exact h
          · split at hperform
            · cases hperform
            · cases hperform
              exact h.setUnit _
  | commit =>
      rw [perform_commit] at hperform
      cases hperform
      exact (h.withTables _).setUnit _
  | begin | save | append | rollback =>
      cases hperform
      exact h.setUnit _
  | insertAccount | insertTransaction =>
      cases hperform
      exact h.withTables _
  | _ =>
      cases hperform
      exact h

theorem perform_isSome (now : Timestamp) (hs : s.Sound) (h : s.Alone u)
    (hc : ∀ row, c ≠ .saveAccount row) :
    (s.perform u now c).isSome = true := by
  cases c with
  | saveAccount row => exact absurd rfl (hc row)
  | lock id =>
      simp only [Store.perform]
      split
      · rfl
      · split
        · rfl
        · rename_i hheld
          split
          · rfl
          · split
            · rename_i hlocked
              exact absurd (holds_of_isLocked hs h hlocked) hheld
            · rfl
  | _ => rfl

theorem Alone.runAlone {α : Type} {begun : Bool} {found : List AccountId} {p : Work α}
    (now : Timestamp) (hs : s.Sound) (h : s.Alone u) (hp : p.Orderly begun found) :
    ∃ s', Procedure.runAlone u now p s = some (s', (p.exec now (s.unit u) s.tables).2.2) ∧
      s'.drop u = { tables := (p.exec now (s.unit u) s.tables).2.1 } := by
  induction p generalizing s begun found with
  | done result => exact ⟨s, rfl, h⟩
  | call c next ih =>
      obtain ⟨⟨s₁, a⟩, hperform⟩ :=
        Option.isSome_iff_exists.mp (perform_isSome now hs h hp.ne_saveAccount)
      obtain ⟨hmoves, ha⟩ := hs.perform_eq hperform
      obtain ⟨begun', found', hnext⟩ := hp.next a
      obtain ⟨s', hrun, hdrop⟩ := ih a hmoves.sound (h.perform hperform) hnext
      rw [hmoves.self, hmoves.tables, ha] at hrun hdrop
      refine ⟨s', ?_, hdrop⟩
      rw [Procedure.runAlone, hperform]
      simp only [ha]
      exact hrun

end Store

/-- What a request does to the tables, and what comes of it, when no other call is running. -/
def Request.outcome (r : Request) (config : Config) (now : Timestamp) (t : Tables) :
    Tables × Except LedgerError Reply :=
  ((r.program config).exec now .closed t).2

namespace Service

variable {s : Service} {t : Tables}

/-- Whether every event will be taken: by the bus inside the calls, or by the relay. -/
def Accepts (s : Service) : Prop :=
  match s.relay with
  | none => s.publisher.online = true ∧ s.publisher.failures = 0
  | some relay => relay.accepting = true

theorem Accepts.announce (h : s.Accepts) (e : Event) :
    ∃ s', s.announce e = (s', .ok ()) ∧ s'.store = s.store ∧ s'.config = s.config ∧
      s'.Accepts := by
  unfold Accepts at h
  unfold Service.announce
  cases hrelay : s.relay with
  | none =>
      simp only [hrelay] at h
      simp only [Publisher.publish, h.1, h.2, Bool.not_true, Bool.false_eq_true, if_false, if_true]
      exact ⟨_, rfl, rfl, rfl, ⟨h.1, h.2⟩⟩
  | some relay =>
      simp only [hrelay] at h
      simp only [Relay.send?, h, if_true]
      exact ⟨_, rfl, rfl, rfl, rfl⟩

/-- Answers with a reply, after the change that it tells of has been announced. -/
def report (s : Service) (reply : Reply) : Service × Except LedgerError Reply :=
  match reply.event? with
  | none => (s, .ok reply)
  | some e => ((s.announce e).1, (s.announce e).2.map fun _ => reply)

/-- What a call does to the tables does not depend on the bus or the relay; these come in only
when the change is announced. -/
theorem call_eq (hstore : s.store = { tables := t }) (now : Timestamp) (r : Request) :
    s.call now r =
      match (r.outcome s.config now t).2 with
      | .error e => ({ s with store := { tables := (r.outcome s.config now t).1 } }, .error e)
      | .ok reply =>
          ({ s with store := { tables := (r.outcome s.config now t).1 } } : Service).report reply
    := by
  unfold Service.call
  cases hwork : r.work s.config with
  | error e =>
      have houtcome : r.outcome s.config now t = (t, .error e) := by
        rw [Request.outcome, Request.program, hwork]
        rfl
      simp only [houtcome, ← hstore]
  | ok work =>
      have hprogram : r.program s.config = work := by
        rw [Request.program, hwork]
      have horderly : work.Orderly false [] := by
        have hrequest := r.orderly_program s.config
        rwa [hprogram] at hrequest
      have hsound : s.store.Sound := hstore ▸ Store.sound_empty t
      have halone : s.store.Alone soleUnit := by
        rw [hstore]
        rfl
      obtain ⟨s', hrun, hdrop⟩ := halone.runAlone now hsound horderly
      have houtcome : (work.exec now (s.store.unit soleUnit) s.store.tables).2 =
          r.outcome s.config now t := by
        rw [Request.outcome, hprogram, hstore]
        rfl
      rw [houtcome] at hrun hdrop
      simp only [hrun]
      cases hresult : (r.outcome s.config now t).2 with
      | error e => simp only [hdrop]
      | ok reply =>
          simp only [hdrop, report]
          cases hevent : reply.event? with
          | none => rfl
          | some e =>
              simp only
              split
              · rename_i hannounce
                simp only [hannounce]
                rfl
              · rename_i hannounce
                simp only [hannounce]
                rfl

theorem Accepts.call (h : s.Accepts) (hstore : s.store = { tables := t }) (now : Timestamp)
    (r : Request) :
    ∃ s', s.call now r = (s', (r.outcome s.config now t).2) ∧
      s'.store = { tables := (r.outcome s.config now t).1 } ∧ s'.config = s.config ∧
      s'.Accepts := by
  rw [call_eq hstore]
  cases hresult : (r.outcome s.config now t).2 with
  | error e => exact ⟨_, rfl, rfl, rfl, h⟩
  | ok reply =>
      simp only [report]
      cases hevent : reply.event? with
      | none => exact ⟨_, rfl, rfl, rfl, h⟩
      | some e =>
          obtain ⟨s', hannounce, hstore', hconfig, haccepts⟩ := Accepts.announce
            (s := { s with store := { tables := (r.outcome s.config now t).1 } }) h e
          simp only [hannounce]
          exact ⟨s', rfl, hstore', hconfig, haccepts⟩

/-- A service whose events will all be taken, with its tables. -/
structure Ready (config : Config) (t : Tables) (s : Service) : Prop where
  accepts : s.Accepts
  store : s.store = { tables := t }
  config : s.config = config

theorem ready_start (config : Config) : (start config).Ready config {} where
  accepts := by
    unfold Accepts start
    split
    · exact ⟨rfl, rfl⟩
    · rename_i relay hrelay
      split at hrelay
      · cases hrelay
        rfl
      · cases hrelay
  store := rfl
  config := rfl

theorem Ready.call {config : Config} (h : s.Ready config t) (now : Timestamp) (r : Request) :
    ∃ s', s.call now r = (s', (r.outcome config now t).2) ∧
      s'.Ready config (r.outcome config now t).1 := by
  obtain ⟨s', hcall, hstore, hconfig, haccepts⟩ := h.accepts.call h.store now r
  rw [h.config] at hcall hstore hconfig
  exact ⟨s', hcall, haccepts, hstore, hconfig⟩

theorem store_shutdown (s : Service) : s.shutdown.1.store = s.store := by
  unfold shutdown
  split <;> rfl

end Service

end Ledger
