import Ledger.Proofs.Concurrent.Invariant

namespace Ledger.Concurrent

variable {config : Config} {faults : Bool} {w w' before after : World} {a : Action}
  {actions : List Action} {r : Request} {k : CallId} {c : Call} {t t' : Tables}
  {changes : List (Tables × Tables)} {stage stage' : Stage} {m : Move} {reply : Reply}

/-- Whether an action is a step of the given call. -/
def Action.isOf (k : CallId) : Action → Bool
  | .move j _ => j = k
  | .invoke _ => false

/-- The tables before and after each step of one call. -/
def World.changesOf (config : Config) (k : CallId) : World → List Action → List (Tables × Tables)
  | _, [] => []
  | w, a :: rest =>
      match w.step config a with
      | none => []
      | some w' =>
          (if a.isOf k then [(w.store.tables, w'.store.tables)] else []) ++
            w'.changesOf config k rest

/-- No step of a call has changed the tables. -/
def Untouched (changes : List (Tables × Tables)) : Prop :=
  ∀ change ∈ changes, change.2 = change.1

/-- One step of a call has done everything that its request is for, and no other step has changed
the tables. -/
def AppliedOnce (config : Config) (r : Request) (reply : Reply)
    (changes : List (Tables × Tables)) : Prop :=
  ∃ now t t' pre post, changes = pre ++ (t, t') :: post ∧ Effect config now t r reply t' ∧
    Untouched (pre ++ post)

/-- Whether a call is over: it has returned, its time has run out, or its caller has dropped it. -/
def Stage.isOver : Stage → Bool
  | returned _ | expired _ | dropped _ => true
  | _ => false

/-- What the steps of a call have done when its store work has come to a result. -/
def Matches (config : Config) (r : Request) (changes : List (Tables × Tables)) :
    Except LedgerError Reply → Prop
  | .ok reply => AppliedOnce config r reply changes
  | .error _ => Untouched changes

/-- What the steps of a call have done by the time it has come to a stage. -/
def Stage.Tells (config : Config) (r : Request) (changes : List (Tables × Tables)) :
    Stage → Prop
  | working (.call ..) | expired _ | dropped none => Untouched changes
  | working (.done result) | releasing (.done result) => Matches config r changes result
  | announcing reply _ | dropped (some reply) => AppliedOnce config r reply changes
  | returned (.ok reply) => AppliedOnce config r reply changes
  | returned (.error e) =>
      (e.kind = .publishFailure → ∃ reply, AppliedOnce config r reply changes) ∧
        (e.kind ≠ .publishFailure → Untouched changes)
  | releasing (.call ..) => False

theorem Untouched.append (h : Untouched changes) (t : Tables) :
    Untouched (changes ++ [(t, t)]) := by
  intro change hchange
  rcases List.mem_append.mp hchange with hold | hnew
  · exact h change hold
  · rw [List.mem_singleton.mp hnew]

theorem AppliedOnce.append (h : AppliedOnce config r reply changes) (t : Tables) :
    AppliedOnce config r reply (changes ++ [(t, t)]) := by
  obtain ⟨now, t₀, t₁, pre, post, rfl, heffect, hrest⟩ := h
  refine ⟨now, t₀, t₁, pre, post ++ [(t, t)], by simp, heffect, ?_⟩
  rw [← List.append_assoc]
  exact hrest.append t

theorem Matches.append {result : Except LedgerError Reply} (h : Matches config r changes result)
    (t : Tables) : Matches config r (changes ++ [(t, t)]) result := by
  cases result with
  | ok reply => exact AppliedOnce.append h t
  | error e => exact Untouched.append h t

/-- The step that settles what comes of a call does all of it, if anything. -/
theorem Untouched.settles {now : Timestamp} {result : Except LedgerError Reply}
    (h : Untouched changes) (houtcome : r.outcome config now t = (t', result)) :
    Matches config r (changes ++ [(t, t')]) result := by
  rcases r.outcome_cases config now t with ⟨e, -, hfailed⟩ | ⟨reply, t₁, hdone, heffect⟩
  · rw [hfailed] at houtcome
    cases houtcome
    exact h.append t
  · rw [hdone] at houtcome
    cases houtcome
    exact ⟨now, t, _, changes, [], rfl, heffect, by simpa using h⟩

theorem Progress.tells (h : Progress config faults r t m stage stage' t')
    (htells : stage.Tells config r changes) :
    stage'.Tells config r (changes ++ [(t, t')]) := by
  cases h with
  | goes | expires | cancelled => exact Untouched.append htells t
  | ends outcome _ settled =>
      rcases settled with rfl | rfl
      · exact Untouched.settles htells outcome
      · exact Untouched.settles htells outcome
  | ends_at_fault _ outcome => exact Untouched.settles htells outcome
  | fails => exact Untouched.append htells t
  | releases => exact Matches.append htells t
  | @returns result proper =>
      cases result with
      | ok reply => exact AppliedOnce.append htells t
      | error e =>
          refine ⟨fun hkind => absurd hkind (proper e rfl), fun _ => ?_⟩
          exact Untouched.append htells t
  | finishes | announces | forgotten => exact AppliedOnce.append htells t
  | @unannounced reply event cause =>
      refine ⟨fun _ => ⟨reply, AppliedOnce.append htells t⟩, fun hkind => ?_⟩
      exact absurd rfl hkind

theorem World.Sound.tells_step (hw : w.Sound config true) (hstep : w.step config a = some w')
    (hcall : w.calls[k]? = some c) (htells : c.stage.Tells config c.request changes) :
    ∃ c', w'.calls[k]? = some c' ∧ c'.request = c.request ∧
      c'.stage.Tells config c.request (changes ++
        if a.isOf k then [(w.store.tables, w'.store.tables)] else []) := by
  have hk := (List.getElem?_eq_some_iff.mp hcall).1
  cases a with
  | invoke r =>
      cases hstep
      refine ⟨c, ?_, rfl, by simpa [Action.isOf] using htells⟩
      rw [World.invoke, List.getElem?_append_left hk, hcall]
  | move j m =>
      obtain ⟨c', stage, hcall', hcalls, hstepped⟩ := hw.stepped (fun _ _ => rfl) hstep
      rcases Decidable.em (j = k) with rfl | hjk
      · rw [hcall] at hcall'
        cases hcall'
        refine ⟨{ c with stage }, ?_, rfl, ?_⟩
        · rw [hcalls, List.getElem?_set_self hk]
        · simp only [Action.isOf, decide_true, if_true]
          exact hstepped.progress.tells htells
      · refine ⟨c, ?_, rfl, by simpa [Action.isOf, hjk] using htells⟩
        rw [hcalls, List.getElem?_set_ne hjk, hcall]

theorem World.Sound.tells_run (hw : w.Sound config true) (hrun : w.run config actions = some w')
    (hcall : w.calls[k]? = some c) (htells : c.stage.Tells config c.request changes) :
    ∃ c', w'.calls[k]? = some c' ∧ c'.request = c.request ∧
      c'.stage.Tells config c.request (changes ++ w.changesOf config k actions) := by
  -- what the call has done before the run is carried along in `changes`
  induction actions generalizing w c changes with
  | nil =>
      cases hrun
      exact ⟨c, hcall, rfl, by simpa [World.changesOf] using htells⟩
  | cons a rest ih =>
      obtain ⟨w₁, hstep, hrest⟩ := World.run_cons hrun
      obtain ⟨c₁, hcall₁, hrequest₁, htells₁⟩ := hw.tells_step hstep hcall htells
      rw [← hrequest₁] at htells₁
      obtain ⟨c', hcall', hrequest', htells'⟩ :=
        ih (hw.step (fun _ => rfl) hstep) hrest hcall₁ htells₁
      refine ⟨c', hcall', hrequest'.trans hrequest₁, ?_⟩
      rw [hrequest₁, List.append_assoc] at htells'
      simp only [World.changesOf, hstep]
      exact htells'

theorem Stage.tells_invoked (config : Config) (r : Request) :
    (working (r.program config)).Tells config r [] := by
  cases hprogram : r.program config with
  | done result =>
      obtain ⟨e, rfl⟩ := Request.error_of_program_done hprogram
      exact fun _ hmem => nomatch hmem
  | call => exact fun _ hmem => nomatch hmem

theorem Call.Sound.unit_of_isOver {s : Store} (hc : c.Sound config faults s k)
    (hover : c.stage.isOver = true) : s.unit k = .closed := by
  unfold Call.Sound at hc
  generalize c.stage = stage at hc hover
  cases stage with
  | returned | expired | dropped => exact hc
  | _ => cases hover

end Ledger.Concurrent
