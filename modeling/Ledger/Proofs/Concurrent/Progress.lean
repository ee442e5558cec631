import Ledger.Proofs.Concurrent.World

namespace Ledger.Concurrent

open Work

variable {config : Config} {faults : Bool} {s s' : Store} {k : CallId} {c : Call} {m : Move}
  {stage : Stage}

/-- Pending work has got where it is by itself, or a call of the store has failed it; a call that
has returned or was given up keeps no unit of work. -/
def Call.Sound (config : Config) (faults : Bool) (s : Store) (k : CallId) (c : Call) : Prop :=
  match c.stage with
  | .working (.call request next) =>
      Reaches s.tables (c.request.program config) (.call request next) (s.unit k) ∨
        faults = true ∧ Failed (.call request next)
  | .working (.done result) => Proper result
  | .releasing rest => ∃ result, Proper result ∧ rest = .done result
  | _ => s.unit k = .closed

/-- Everything that a step of a call can do to its stage and to the tables. Pending work goes on,
comes to the outcome that it has alone, fails by the store, or is given up. What has been settled
is carried to the caller. -/
inductive Progress (config : Config) (faults : Bool) (r : Request) (t : Tables) :
    Move → Stage → Stage → Tables → Prop
  | goes {m : Move} {c c' : StoreCall} {next : c.Answer → Work Reply}
      {next' : c'.Answer → Work Reply} (tentative : faults = false → c.isTentative = true) :
      Progress config faults r t m (.working (.call c next)) (.working (.call c' next')) t
  | ends {now : Timestamp} {c : StoreCall} {next : c.Answer → Work Reply} {stage : Stage}
      {result : Except LedgerError Reply} {t' : Tables}
      (outcome : r.outcome config now t = (t', result)) (proper : Proper result)
      (settled : stage = .working (.done result) ∨ stage = .releasing (.done result)) :
      Progress config faults r t (.perform now) (.working (.call c next)) stage t'
  | ends_at_fault {m : Move} {now : Timestamp} {c : StoreCall} {next : c.Answer → Work Reply}
      {result : Except LedgerError Reply} (fault : faults = true)
      (outcome : r.outcome config now t = (t, result)) (proper : Proper result) :
      Progress config faults r t m (.working (.call c next)) (.working (.done result)) t
  | fails {m : Move} {c : StoreCall} {next : c.Answer → Work Reply} {e : LedgerError}
      (fault : faults = true) (proper : e.kind ≠ .publishFailure) :
      Progress config faults r t m (.working (.call c next)) (.working (refuse e)) t
  | expires {c : StoreCall} {next : c.Answer → Work Reply} {limit : Nat} :
      Progress config faults r t .expire (.working (.call c next)) (.expired limit) t
  | cancelled {c : StoreCall} {next : c.Answer → Work Reply} :
      Progress config faults r t .cancel (.working (.call c next)) (.dropped none) t
  | releases {result : Except LedgerError Reply} :
      Progress config faults r t .release (.releasing (.done result)) (.working (.done result)) t
  | returns {result : Except LedgerError Reply} (proper : Proper result) :
      Progress config faults r t .finish (.working (.done result)) (.returned result) t
  | finishes {reply : Reply} {event : Event} :
      Progress config faults r t .finish (.working (.done (.ok reply)))
        (.announcing reply event) t
  | announces {reply : Reply} {event : Event} :
      Progress config faults r t (.announce (.ok ())) (.announcing reply event)
        (.returned (.ok reply)) t
  | unannounced {reply : Reply} {event : Event} {cause : PublishError} :
      Progress config faults r t (.announce (.error cause)) (.announcing reply event)
        (.returned (.error (.publishFailure event.topic cause))) t
  | forgotten {reply : Reply} {event : Event} :
      Progress config faults r t .cancel (.announcing reply event) (.dropped (some reply)) t

/-- What holds of one step of a sound call. -/
structure Call.Stepped (config : Config) (faults : Bool) (s s' : Store) (k : CallId) (c : Call)
    (m : Move) (stage : Stage) : Prop where
  moves : s.Moves s' k (s'.unit k) s'.tables
  sound : Call.Sound config faults s' k { c with stage }
  frame : ∀ id row, s.tables.find? id = some row → (s.unit k).holds id = false →
    s'.tables.find? id = some row
  progress : Progress config faults c.request s.tables m c.stage stage s'.tables

section Pending

variable {r : Request} {t : Tables} {u : UnitOfWork} {request : StoreCall}
  {next : request.Answer → Work Reply}

theorem reaches_answer (h : Reaches t (r.program config) (.call request next) u)
    (now : Timestamp) :
    (∃ result, next (u.perform now t request).2.2 = .done result ∧ Proper result ∧
        r.outcome config now t = ((u.perform now t request).2.1, result)) ∨
      ∃ request' next', next (u.perform now t request).2.2 = .call request' next' ∧
        request.isTentative = true ∧ (u.perform now t request).2.1 = t ∧
        Reaches t (r.program config) (.call request' next') (u.perform now t request).1 := by
  obtain ⟨begun, found, horderly, -, -⟩ := h.orderly (r.orderly_program config)
  obtain ⟨begun', found', hnext⟩ := horderly.next (u.perform now t request).2.2
  cases hanswer : next (u.perform now t request).2.2 with
  | done result =>
      refine .inl ⟨result, rfl, ?_, h.exec_of_done hanswer⟩
      rw [hanswer] at hnext
      cases hnext with
      | done proper => exact proper
  | call request' next' =>
      refine .inr ⟨request', next', rfl, ?_⟩
      rcases horderly.tentative_or_done with htentative | hdone
      · refine ⟨htentative, UnitOfWork.perform_tentative htentative now, ?_⟩
        rw [← hanswer]
        exact h.call now htentative
      · obtain ⟨result, -, hresult⟩ := hdone (u.perform now t request).2.2
        rw [hanswer] at hresult
        cases hresult

theorem reaches_fail (h : Reaches t (r.program config) (.call request next) u) (e : StoreError) :
    Failed (next (.error e)) ∨
      ∃ result, next (.error e) = .done result ∧ Proper result ∧
        ∀ now, r.outcome config now t = (t, result) := by
  obtain ⟨begun, found, horderly, -, -⟩ := h.orderly (r.orderly_program config)
  rcases horderly.fail e with hfailed | ⟨rfl, result, hproper, hresult⟩
  · exact .inl hfailed
  · exact .inr ⟨result, hresult _, hproper, fun now => h.exec_of_done (hresult _)⟩

theorem ne_saveAccount (h : Reaches t (r.program config) (.call request next) u ∨
    faults = true ∧ Failed (.call request next)) (copy : Account) :
    request ≠ .saveAccount copy := by
  rcases h with hreaches | ⟨-, hfailed⟩
  · obtain ⟨begun, found, horderly, -, -⟩ := hreaches.orderly (r.orderly_program config)
    exact horderly.ne_saveAccount copy
  · rintro rfl
    cases hfailed.of_call.1

end Pending

theorem stepped_perform {request : StoreCall} {next : request.Answer → Work Reply}
    {now : Timestamp} {work : UnitOfWork} (hs : s.Sound)
    (hstage : c.stage = .working (.call request next))
    (hc : Reaches s.tables (c.request.program config) (.call request next) (s.unit k) ∨
      faults = true ∧ Failed (.call request next))
    (hmoves : s.Moves s' k work ((s.unit k).perform now s.tables request).2.1)
    (hafter :
      (stage = .working (next ((s.unit k).perform now s.tables request).2.2) ∧
          work = ((s.unit k).perform now s.tables request).1) ∨
        (request = .commit ∧
          stage = .releasing (next ((s.unit k).perform now s.tables request).2.2))) :
    Call.Stepped config faults s s' k c (.perform now) stage := by
  have hne := ne_saveAccount hc
  have hself := hmoves.self
  have htables := hmoves.tables
  suffices hboth : Call.Sound config faults s' k { c with stage } ∧
      Progress config faults c.request s.tables (.perform now) c.stage stage s'.tables by
    refine ⟨⟨hmoves.sound, rfl, rfl, hmoves.other⟩, hboth.1, ?_, hboth.2⟩
    intro id row hrow hfree
    rw [htables]
    exact UnitOfWork.find?_perform (hs.units k) hne hrow hfree
  rw [hstage]
  rcases hc with hreaches | ⟨hfaults, hfailed⟩
  · rcases reaches_answer hreaches now with
      ⟨result, hnext, hproper, houtcome⟩ | ⟨request', next', hnext, htentative, hsame, hreaches'⟩
    · rw [hnext] at hafter
      rw [← htables] at houtcome
      rcases hafter with ⟨rfl, -⟩ | ⟨-, rfl⟩
      · exact ⟨hproper, .ends houtcome hproper (.inl rfl)⟩
      · exact ⟨⟨result, hproper, rfl⟩, .ends houtcome hproper (.inr rfl)⟩
    · rcases hafter with ⟨rfl, rfl⟩ | ⟨rfl, -⟩
      · rw [hsame] at htables
        rw [hnext, htables]
        refine ⟨.inl ?_, .goes fun _ => htentative⟩
        rw [hself, htables]
        exact hreaches'
      · cases htentative
  · obtain ⟨rfl, e, he, hrefuse⟩ := hfailed.of_call
    rcases hafter with ⟨rfl, -⟩ | ⟨hcommit, -⟩
    · rw [hrefuse, show s'.tables = s.tables from htables]
      exact ⟨proper_error he, .fails hfaults he⟩
    · cases hcommit

theorem stepped_fail {request : StoreCall} {next : request.Answer → Work Reply} {e : StoreError}
    (hs : s.Sound) (hfaults : faults = true) (hstage : c.stage = .working (.call request next))
    (hc : Reaches s.tables (c.request.program config) (.call request next) (s.unit k) ∨
      faults = true ∧ Failed (.call request next)) :
    Call.Stepped config faults s s k c (.fail e) (.working (next (.error e))) := by
  suffices hboth : Call.Sound config faults s k { c with stage := .working (next (.error e)) } ∧
      Progress config faults c.request s.tables (.fail e) c.stage (.working (next (.error e)))
        s.tables from
    ⟨hs.moves_self k, hboth.1, fun _ _ hrow _ => hrow, hboth.2⟩
  have hfails : ∀ e', LedgerError.kind e' ≠ .publishFailure → next (.error e) = refuse e' →
      Call.Sound config faults s k { c with stage := .working (next (.error e)) } ∧
        Progress config faults c.request s.tables (.fail e) c.stage (.working (next (.error e)))
          s.tables := by
    intro e' he hrefuse
    rw [hstage, hrefuse]
    exact ⟨proper_error he, .fails hfaults he⟩
  rcases hc with hreaches | ⟨-, hfailed⟩
  · rcases reaches_fail hreaches e with hfailed | ⟨result, hnext, hproper, houtcome⟩
    · generalize hrest : next (.error e) = rest at *
      cases hfailed with
      | refused e' he => exact hfails e' he rfl
      | abandoned e' he =>
          rw [hstage]
          refine ⟨.inr ⟨hfaults, .abandoned e' he⟩, .goes ?_⟩
          rw [hfaults]
          rintro ⟨⟩
    · rw [hstage, hnext]
      exact ⟨hproper, .ends_at_fault hfaults (houtcome default) hproper⟩
  · obtain ⟨rfl, e', he, hrefuse⟩ := hfailed.of_call
    exact hfails e' he (hrefuse _)

theorem step_perform {request : StoreCall} {next : request.Answer → Work Reply} (now : Timestamp)
    (hstage : c.stage = .working (.call request next)) (hrequest : request ≠ .commit) :
    c.step config s k (.perform now) =
      (s.perform k now request).map fun done => (done.1, .working (next done.2)) := by
  simp only [Call.step, hstage]
  cases request <;> first | rfl | exact absurd rfl hrequest

/-- What a step of a sound call does to the store, to the stage of the call and to the tables. -/
theorem Call.stepped (hs : s.Sound) (hc : c.Sound config faults s k)
    (hfaults : ∀ e, m = .fail e → faults = true)
    (h : c.step config s k m = some (s', stage)) :
    Call.Stepped config faults s s' k c m stage := by
  have hcarried : ∀ {s' : Store} {work : UnitOfWork}, s.Moves s' k work s.tables →
      Call.Sound config faults s' k { c with stage } →
      Progress config faults c.request s.tables m c.stage stage s.tables →
      Call.Stepped config faults s s' k c m stage := by
    intro s' work hmoves hsound hprogress
    refine ⟨⟨hmoves.sound, rfl, rfl, hmoves.other⟩, hsound, ?_, ?_⟩
    · intro id row hrow _
      rw [hmoves.tables, hrow]
    · rw [hmoves.tables]
      exact hprogress
  unfold Call.Sound at hc
  cases m with
  | perform now =>
      cases hstage : c.stage with
      | working rest =>
          cases rest with
          | done result =>
              simp only [Call.step, hstage] at h
              cases h
          | call request next =>
              simp only [hstage] at hc
              by_cases hrequest : request = .commit
              · subst hrequest
                simp only [Call.step, hstage] at h
                cases h
                exact stepped_perform hs hstage hc (hs.moves_tables k _) (.inr ⟨rfl, rfl⟩)
              · rw [step_perform now hstage hrequest] at h
                obtain ⟨⟨s₁, answer⟩, hperform, hdone⟩ := Option.map_eq_some_iff.mp h
                obtain ⟨hmoves, rfl⟩ := hs.perform_eq hperform
                cases hdone
                exact stepped_perform hs hstage hc hmoves (.inl ⟨rfl, rfl⟩)
      | _ =>
          simp only [Call.step, hstage] at h
          cases h
  | fail e =>
      simp only [Call.step] at h
      split at h
      · rename_i request next hstage
        simp only [hstage] at hc
        cases h
        exact stepped_fail hs (hfaults e rfl) hstage hc
      · cases h
  | release =>
      simp only [Call.step] at h
      split at h
      · rename_i rest hstage
        simp only [hstage] at hc
        obtain ⟨result, hproper, rfl⟩ := hc
        cases h
        exact hcarried (hs.moves_release k) hproper (hstage ▸ .releases)
      · cases h
  | finish =>
      simp only [Call.step] at h
      split at h
      · rename_i reply hstage
        simp only [hstage] at hc
        split at h
        · cases h
          exact hcarried (hs.moves_drop k) (hs.moves_drop k).self (hstage ▸ .finishes)
        · cases h
          exact hcarried (hs.moves_drop k) (hs.moves_drop k).self (hstage ▸ .returns hc)
      · rename_i e hstage
        simp only [hstage] at hc
        cases h
        exact hcarried (hs.moves_drop k) (hs.moves_drop k).self (hstage ▸ .returns hc)
      · cases h
  | announce outcome =>
      simp only [Call.step] at h
      split at h
      · rename_i reply event hstage
        simp only [hstage] at hc
        cases h
        exact hcarried (hs.moves_self k) hc (hstage ▸ .announces)
      · rename_i reply event cause hstage
        simp only [hstage] at hc
        cases h
        exact hcarried (hs.moves_self k) hc (hstage ▸ .unannounced)
      · cases h
  | expire =>
      simp only [Call.step] at h
      split at h
      · rename_i request next limit hstage htimeout
        cases h
        exact hcarried (hs.moves_drop k) (hs.moves_drop k).self (hstage ▸ .expires)
      · cases h
  | cancel =>
      simp only [Call.step] at h
      split at h
      · rename_i request next hstage
        cases h
        exact hcarried (hs.moves_drop k) (hs.moves_drop k).self (hstage ▸ .cancelled)
      · rename_i reply event hstage
        simp only [hstage] at hc
        cases h
        exact hcarried (hs.moves_self k) hc (hstage ▸ .forgotten)
      · cases h

end Ledger.Concurrent
