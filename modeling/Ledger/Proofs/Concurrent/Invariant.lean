import Ledger.Proofs.Concurrent.Progress

namespace Ledger.Concurrent

variable {config : Config} {faults : Bool} {w w' : World} {a : Action}

/-- Whether an action is a failure of the store. -/
def Action.isFault : Action → Bool
  | .move _ (.fail _) => true
  | _ => false

theorem Progress.persists {r : Request} {t t' : Tables} {m : Move} {stage stage' : Stage}
    (h : Progress config faults r t m stage stage' t') : t.Persists t' := by
  cases h with
  | @ends now _ _ _ result _ outcome =>
      rw [show t' = (r.outcome config now t).1 by rw [outcome]]
      exact r.outcome_persists config now t
  | _ => exact Tables.Persists.refl t

theorem Progress.tables {r : Request} {t t' : Tables} {m : Move} {stage stage' : Stage}
    (h : Progress config faults r t m stage stage' t') :
    t' = t ∨ ∃ now reply, Effect config now t r reply t' := by
  cases h with
  | @ends now _ _ _ result _ outcome =>
      rcases r.outcome_cases config now t with ⟨e, -, hfailed⟩ | ⟨reply, t₁, hdone, heffect⟩
      · rw [hfailed] at outcome
        cases outcome
        exact .inl rfl
      · rw [hdone] at outcome
        cases outcome
        exact .inr ⟨now, reply, heffect⟩
  | _ => exact .inl rfl

namespace World

/-- The rows are locked as they should be, every call is where it would be if it ran alone, and no
unit of work has been begun in the name of a call that is yet to come. -/
structure Sound (config : Config) (faults : Bool) (w : World) : Prop where
  store : w.store.Sound
  calls : ∀ (k : CallId) c, w.calls[k]? = some c → c.Sound config faults w.store k
  idle : ∀ k, w.calls.length ≤ k → w.store.unit k = .closed

theorem sound_start (config : Config) (faults : Bool) (t : Tables) :
    (start t).Sound config faults where
  store := Store.sound_empty t
  calls k c h := by cases h
  idle _ _ := rfl

theorem calls_invoke {r : Request} {k : CallId} {c : Call}
    (h : (w.invoke config r).calls[k]? = some c) :
    w.calls[k]? = some c ∨ k = w.calls.length ∧ c = ⟨r, .working (r.program config)⟩ := by
  rcases Nat.lt_trichotomy k w.calls.length with hlt | rfl | hgt
  · rw [invoke, List.getElem?_append_left hlt] at h
    exact .inl h
  · rw [invoke, List.getElem?_concat_length] at h
    exact .inr ⟨rfl, (Option.some.inj h).symm⟩
  · have hlength := (List.getElem?_eq_some_iff.mp h).1
    rw [invoke, List.length_append, List.length_singleton] at hlength
    omega

theorem sound_invoked {s : Store} {k : CallId} (r : Request) (hidle : s.unit k = .closed) :
    Call.Sound config faults s k ⟨r, .working (r.program config)⟩ := by
  have horderly := r.orderly_program config
  unfold Call.Sound
  cases hprogram : r.program config with
  | done result =>
      rw [hprogram] at horderly
      cases horderly with
      | done proper => exact proper
  | call request next =>
      refine .inl ?_
      rw [hidle]
      exact .start

theorem Sound.invoke (hw : w.Sound config faults) (r : Request) :
    (w.invoke config r).Sound config faults := by
  refine ⟨hw.store, ?_, ?_⟩
  · intro k c hk
    rcases calls_invoke hk with hold | ⟨rfl, rfl⟩
    · exact hw.calls k c hold
    · exact sound_invoked r (hw.idle _ (Nat.le_refl _))
  · intro k hk
    refine hw.idle k ?_
    rw [World.invoke, List.length_append] at hk
    omega

/-- The step of one call leaves every other call sound: it writes no row that the other one holds,
and what the other one has found stays. -/
theorem sound_other {s s' : Store} {j k : CallId} {c c' : Call} {m : Move} {stage : Stage}
    (hs : s.Sound) (hc : c.Sound config faults s j) (hjk : j ≠ k)
    (h : Call.Stepped config faults s s' k c' m stage) : c.Sound config faults s' j := by
  unfold Call.Sound at hc ⊢
  rw [h.moves.other j hjk]
  split at hc
  · rcases hc with hreaches | hfailed
    · refine .inl (hreaches.mono (c.request.orderly_program config) h.progress.persists ?_ ?_)
      · intro result hdone
        cases hdone
      · intro id hheld
        obtain ⟨row, hrow⟩ := hreaches.exists_of_holds hheld
        refine (h.frame id row hrow ?_).trans hrow.symm
        cases hother : (s.unit k).holds id with
        | false => rfl
        | true => exact absurd (hs.exclusive j k id hheld hother) hjk
    · exact .inr hfailed
  · exact hc
  · exact hc
  · exact hc

theorem Sound.stepped {k : CallId} {m : Move} (hw : w.Sound config faults)
    (hfaults : ∀ e, m = .fail e → faults = true) (h : w.step config (.move k m) = some w') :
    ∃ c stage, w.calls[k]? = some c ∧ w'.calls = w.calls.set k { c with stage } ∧
      Call.Stepped config faults w.store w'.store k c m stage := by
  obtain ⟨c, store, stage, hcall, hstep, rfl⟩ := step_move h
  exact ⟨c, stage, hcall, rfl, Call.stepped hw.store (hw.calls k c hcall) hfaults hstep⟩

theorem Sound.step (hw : w.Sound config faults) (hfaults : a.isFault = true → faults = true)
    (h : w.step config a = some w') : w'.Sound config faults := by
  cases a with
  | invoke r =>
      cases h
      exact hw.invoke r
  | move k m =>
      obtain ⟨c, stage, hcall, hcalls, hstepped⟩ :=
        hw.stepped (fun e he => hfaults (by rw [he]; rfl)) h
      have hk : k < w.calls.length := (List.getElem?_eq_some_iff.mp hcall).1
      refine ⟨hstepped.moves.sound, ?_, ?_⟩
      · intro j c' hj
        rw [hcalls] at hj
        by_cases hjk : j = k
        · subst hjk
          rw [List.getElem?_set_self hk] at hj
          cases hj
          exact hstepped.sound
        · rw [List.getElem?_set_ne (Ne.symm hjk)] at hj
          exact sound_other hw.store (hw.calls j c' hj) hjk hstepped
      · intro j hj
        rw [hcalls, List.length_set] at hj
        rw [hstepped.moves.other j (Nat.ne_of_gt (Nat.lt_of_lt_of_le hk hj))]
        exact hw.idle j hj

theorem Sound.run {actions : List Action} (hw : w.Sound config faults)
    (hfaults : ∀ a ∈ actions, a.isFault = true → faults = true)
    (h : w.run config actions = some w') : w'.Sound config faults := by
  induction actions generalizing w with
  | nil =>
      cases h
      exact hw
  | cons a rest ih =>
      obtain ⟨w₁, hstep, hrun⟩ := run_cons h
      refine ih (hw.step (hfaults a (by simp)) hstep) ?_ hrun
      intro b hb
      exact hfaults b (by simp [hb])

theorem Reachable.sound (h : w.Reachable config) : w.Sound config true := by
  obtain ⟨actions, hrun⟩ := h
  exact (sound_start config true {}).run (fun _ _ _ => rfl) hrun

theorem Sound.run_induction {P : Tables → Prop} {actions : List Action}
    (heffect : ∀ now t r reply t', P t → Effect config now t r reply t' → P t')
    (hw : w.Sound config true) (hP : P w.store.tables)
    (h : w.run config actions = some w') : P w'.store.tables := by
  induction actions generalizing w with
  | nil =>
      cases h
      exact hP
  | cons a rest ih =>
      obtain ⟨w₁, hstep, hrun⟩ := run_cons h
      refine ih (hw.step (fun _ => rfl) hstep) ?_ hrun
      cases a with
      | invoke r =>
          cases hstep
          exact hP
      | move k m =>
          obtain ⟨c, stage, -, -, hstepped⟩ := hw.stepped (fun _ _ => rfl) hstep
          rcases hstepped.progress.tables with hsame | ⟨now, reply, hdone⟩
          · rw [hsame]
            exact hP
          · exact heffect now _ _ reply _ hP hdone

/-- What holds of the empty tables, and stays true whatever a request does when it succeeds, holds
of the tables of every reachable world. -/
theorem Reachable.induction {P : Tables → Prop} (hempty : P {})
    (heffect : ∀ now t r reply t', P t → Effect config now t r reply t' → P t')
    (h : w.Reachable config) : P w.store.tables := by
  obtain ⟨actions, hrun⟩ := h
  exact (sound_start config true {}).run_induction heffect hempty hrun

end World

end Ledger.Concurrent
