import Ledger.Proofs.Concurrent.Overdraft
import Ledger.Proofs.Simulation.Report

/-!
The transfers of a simulation at the same time. Each of them settles its share while it holds its
rows, so that the order in which they get there does not matter to the report.
-/

namespace Ledger

namespace Concurrent

variable {config : Config} {w w' : World} {a : Action} {actions : List Action} {k : CallId}

/-- What has come of the calls that have returned. -/
def World.outcomes (w : World) : List (Except LedgerError Reply) :=
  w.calls.filterMap fun c =>
    match c.stage with
    | .returned outcome => some outcome
    | _ => none

theorem World.requests_step (hstep : w.step config a = some w') :
    w'.calls.map Call.request = w.calls.map Call.request ++ a.request?.toList := by
  cases a with
  | invoke r =>
      cases hstep
      rw [World.invoke, List.map_append]
      rfl
  | move k m =>
      obtain ⟨c, store, stage, hcall, -, rfl⟩ := World.step_move hstep
      obtain ⟨pre, post, hcalls, hset⟩ := exists_set_eq hcall
      rw [hset, hcalls]
      simp [Action.request?]

theorem World.requests_run (hrun : w.run config actions = some w') :
    w'.calls.map Call.request = w.calls.map Call.request ++ actions.filterMap Action.request? := by
  induction actions generalizing w with
  | nil =>
      cases hrun
      rw [List.filterMap_nil, List.append_nil]
  | cons a rest ih =>
      obtain ⟨w₁, hstep, hrest⟩ := World.run_cons hrun
      rw [ih hrest, World.requests_step hstep, List.append_assoc, List.filterMap_cons]
      cases a.request? <;> rfl

/-- A call that makes a step of its own makes one that nobody disturbs. -/
theorem World.Advances.undisturbed (h : w.Advances config k) :
    ∃ m w', (Action.move k m).isUndisturbed = true ∧ w.step config (.move k m) = some w' := by
  obtain ⟨m, w', hown, hstep⟩ := h
  obtain ⟨c, store, stage, hcall, hmove, -⟩ := World.step_move hstep
  cases m with
  | perform | release | finish => exact ⟨_, w', rfl, hstep⟩
  | fail | expire | cancel => cases hown
  | announce result =>
      simp only [Call.step] at hmove
      split at hmove
      · exact ⟨_, w', rfl, hstep⟩
      · rename_i reply event cause hstage
        have hannounced : c.step config w.store k (.announce (.ok ())) =
            some (w.store, .returned (.ok reply)) := by
          simp only [Call.step, hstage]
        refine ⟨.announce (.ok ()),
          { w with calls := w.calls.set k { c with stage := .returned (.ok reply) } }, rfl, ?_⟩
        simp only [World.step, hcall, hannounced, Option.map_some]
      · cases hmove

end Concurrent

namespace Simulation

open Concurrent

variable {sim : Simulation} {config : Config} {t : Tables} {w w' : World} {actions : List Action}
  {requests : List TransferRequest} {q : TransferRequest} {a : Action} {k : CallId} {m : Move}

/-- A course of transfers that are called at the same time: nobody gives up or runs out of time, and
the bus takes all events. -/
structure Course (config : Config) (t : Tables) (requests : List TransferRequest)
    (actions : List Action) (w : World) : Prop where
  run : (World.start t).run config actions = some w
  undisturbed : ∀ a ∈ actions, a.isUndisturbed = true
  called : actions.filterMap Action.request? <+: requests.map .transfer

/-- All transfers have been called, and all calls are over. -/
structure Finished (requests : List TransferRequest) (w : World) : Prop where
  called : w.calls.map Call.request = requests.map .transfer
  ended : ∀ c ∈ w.calls, c.stage.isOver = true

/-- The call of a planned transfer that is going well. -/
structure Underway (sim : Simulation) (c : Call) : Prop where
  planned : ∃ q, c.request = .transfer q ∧ sim.Planned q
  kept : c.stage.isAbandoned = false
  settled : ∀ outcome, c.stage.result? = some outcome → Settled outcome

/-- The calls and the books of a simulation whose transfers are under way. -/
structure Storming (config : Config) (sim : Simulation) (w : World) : Prop where
  sound : w.Sound config false
  balanced : sim.Balanced w.store.tables
  calls : ∀ c ∈ w.calls, sim.Underway c

/-- The result of a simulation in the end. -/
def conclude (sim : Simulation) (accounts : List Account) (w : World) : Except Failure Result :=
  match audit sim.initialBalance w.store.tables.accounts with
  | .error e => .error (.audit e)
  | .ok totalBalance =>
      .ok
        { accounts := accounts.length
          attempted := w.outcomes.length
          tally := w.outcomes.foldl Tally.count {}
          totalBalance }

namespace Storming

theorem start (h : sim.Balanced t) (config : Config) : Storming config sim (World.start t) where
  sound := World.sound_start config false t
  balanced := h
  calls _ hc := by cases hc

theorem invoke (h : Storming config sim w) (hq : sim.Planned q) :
    Storming config sim (w.invoke config (.transfer q)) := by
  have hfresh : Stage.result? (.working ((Request.transfer q).program config)) = none := by
    rw [Request.program_transfer, if_neg hq.positive, if_neg hq.distinct]
    rfl
  refine ⟨h.sound.invoke _, h.balanced, ?_⟩
  intro c hc
  rcases List.mem_append.mp hc with hold | hlast
  · exact h.calls c hold
  · rw [List.mem_singleton.mp hlast]
    refine ⟨⟨q, rfl, hq⟩, rfl, ?_⟩
    intro outcome houtcome
    rw [hfresh] at houtcome
    cases houtcome

theorem move (h : Storming config sim w) (hsim : sim.Payable)
    (hm : (Action.move k m).isUndisturbed = true) (hstep : w.step config (.move k m) = some w') :
    Storming config sim w' := by
  have hfaults : (Action.move k m).isFault = true → false = true := by
    cases m with
    | fail e => cases hm
    | _ => exact id
  obtain ⟨c, stage, hcall, hcalls, hstepped⟩ :=
    h.sound.stepped (fun e he => hfaults (by rw [he]; rfl)) hstep
  obtain ⟨⟨q, hrequest, hq⟩, -, hsettled⟩ := h.calls c (List.mem_of_getElem? hcall)
  obtain ⟨hkept, hsettles⟩ := hstepped.progress.settles hm
  have hnext : sim.Balanced w'.store.tables ∧
      ∀ outcome, stage.result? = some outcome → Settled outcome := by
    rcases hsettles with ⟨htables, hresult⟩ | ⟨-, now, outcome, houtcome, hresult⟩
    · rw [htables, hresult]
      exact ⟨h.balanced, hsettled⟩
    · obtain ⟨hnow, hbalanced⟩ := h.balanced.settle hsim hq config now
      rw [← hrequest, houtcome] at hnow hbalanced
      refine ⟨hbalanced, ?_⟩
      intro outcome' heq
      rw [hresult, Option.some.injEq] at heq
      exact heq ▸ hnow
  refine ⟨h.sound.step hfaults hstep, hnext.1, ?_⟩
  intro c' hc'
  rw [hcalls] at hc'
  rcases List.mem_or_eq_of_mem_set hc' with hold | rfl
  · exact h.calls c' hold
  · exact ⟨⟨q, hrequest, hq⟩, hkept, hnext.2⟩

theorem run (h : Storming config sim w) (hsim : sim.Payable)
    (hundisturbed : ∀ a ∈ actions, a.isUndisturbed = true)
    (hcalled : ∀ r ∈ actions.filterMap Action.request?, ∃ q, r = .transfer q ∧ sim.Planned q)
    (hrun : w.run config actions = some w') : Storming config sim w' := by
  induction actions generalizing w with
  | nil =>
      cases hrun
      exact h
  | cons a rest ih =>
      obtain ⟨w₁, hstep, hrest⟩ := World.run_cons hrun
      obtain ⟨ha, hrest_undisturbed⟩ := List.forall_mem_cons.mp hundisturbed
      cases a with
      | invoke r =>
          obtain ⟨⟨q, rfl, hq⟩, hrest_called⟩ := List.forall_mem_cons.mp hcalled
          cases hstep
          exact ih (h.invoke hq) hrest_undisturbed hrest_called hrest
      | move k m => exact ih (h.move hsim ha hstep) hrest_undisturbed hcalled hrest

theorem conclude_balances (h : Storming config sim w) (hsim : sim.Payable)
    (hfinished : Finished requests w) {accounts : List Account}
    (haccounts : accounts.length = sim.accounts)
    (hrequests : requests.length = if 2 ≤ sim.accounts then sim.transfers else 0) :
    ∃ r, sim.conclude accounts w = .ok r ∧ r.Balances sim := by
  have hreturned : ∀ c ∈ w.calls, ∃ outcome, c.stage = .returned outcome :=
    fun c hc => Stage.exists_returned (hfinished.ended c hc) (h.calls c hc).kept
  have hlength : w.outcomes.length = requests.length := by
    rw [← List.length_map Request.transfer, ← hfinished.called, List.length_map, World.outcomes,
      List.length_filterMap_eq_countP, List.countP_eq_length]
    intro c hc
    obtain ⟨outcome, hstage⟩ := hreturned c hc
    rw [hstage]
    rfl
  have hsettled : ∀ outcome ∈ w.outcomes, Settled outcome := by
    intro outcome houtcome
    obtain ⟨c, hc, hstage⟩ := List.mem_filterMap.mp houtcome
    obtain ⟨outcome', hstage'⟩ := hreturned c hc
    rw [hstage'] at hstage
    obtain rfl := Option.some.inj hstage
    exact (h.calls c hc).settled outcome' (by rw [hstage']; rfl)
  have hsettles : (w.outcomes.foldl Tally.count {}).Settles (0 + w.outcomes.length) :=
    Tally.settles_foldl ⟨rfl, rfl⟩ hsettled
  rw [Nat.zero_add] at hsettles
  obtain ⟨total, haudit, htotal⟩ := h.balanced.audit_ok hsim
  refine ⟨⟨accounts.length, w.outcomes.length, _, total⟩, ?_, haccounts, hlength.trans hrequests,
    hsettles.settled, hsettles.others, htotal⟩
  rw [conclude, haudit]

end Storming

namespace Course

theorem length_le (h : Course config t requests actions w) :
    actions.length ≤ 13 * requests.length := by
  have hquiet : ∀ c ∈ (World.start t).calls, c.stage.isOver = true := by
    intro c hc
    cases hc
  refine (World.length_le_of_isOver hquiet h.run).trans (Nat.mul_le_mul_left 13 ?_)
  rw [countP_isInvocation, ← List.length_map Request.transfer]
  exact h.called.length_le

theorem storming (h : Course config t requests actions w) (hsim : sim.Payable)
    (ht : sim.Balanced t) (hrequests : ∀ q ∈ requests, sim.Planned q) :
    Storming config sim w := by
  apply (Storming.start ht config).run hsim h.undisturbed _ h.run
  intro r hr
  obtain ⟨q, hq, rfl⟩ := List.mem_map.mp (h.called.subset hr)
  exact ⟨q, rfl, hrequests q hq⟩

theorem concat (h : Course config t requests actions w) (ha : a.isUndisturbed = true)
    (hstep : w.step config a = some w')
    (hcalled : actions.filterMap Action.request? ++ a.request?.toList <+: requests.map .transfer) :
    Course config t requests (actions ++ [a]) w' := by
  refine ⟨World.run_concat h.run hstep, ?_, ?_⟩
  · exact List.forall_mem_append.mpr ⟨h.undisturbed, List.forall_mem_singleton.mpr ha⟩
  · rw [List.filterMap_append]
    cases a with
    | invoke | move => exact hcalled

theorem goes (h : Course config t requests actions w) (hw : w.Sound config false)
    (hopen : ¬Finished requests w) :
    ∃ a w', Course config t requests (actions ++ [a]) w' := by
  by_cases hover : ∀ c ∈ w.calls, c.stage.isOver = true
  · obtain ⟨uncalled, hsplit⟩ := h.called
    cases uncalled with
    | nil =>
        rw [List.append_nil] at hsplit
        exact absurd ⟨(World.requests_run h.run).trans hsplit, hover⟩ hopen
    | cons r rest =>
        refine ⟨.invoke r, _, h.concat rfl rfl ⟨rest, ?_⟩⟩
        rw [← hsplit, List.append_assoc]
        rfl
  · obtain ⟨c, hc, hworking⟩ : ∃ c ∈ w.calls, ¬c.stage.isOver = true := by simpa using hover
    obtain ⟨k, hcall⟩ := List.mem_iff_getElem?.mp hc
    obtain ⟨j, -, -, -, hadvances⟩ :=
      hw.exists_advances hcall (Bool.eq_false_of_not_eq_true hworking)
    obtain ⟨m, w', hm, hstep⟩ := hadvances.undisturbed
    refine ⟨.move j m, w', h.concat hm hstep ?_⟩
    exact (List.append_nil _).symm ▸ h.called

/-- Every course comes to an end, since none of them is longer than so many steps. -/
theorem exists_finished (h : Course config t requests actions w) (hsim : sim.Payable)
    (ht : sim.Balanced t) (hrequests : ∀ q ∈ requests, sim.Planned q) :
    ∃ more after, Course config t requests (actions ++ more) after ∧ Finished requests after := by
  obtain ⟨left, hleft⟩ : ∃ left, 13 * requests.length < actions.length + left :=
    ⟨13 * requests.length + 1, by omega⟩
  induction left generalizing actions w with
  | zero => exact absurd h.length_le (Nat.not_le.mpr hleft)
  | succ left ih =>
      by_cases hfinished : Finished requests w
      · exact ⟨[], w, by rwa [List.append_nil], hfinished⟩
      · obtain ⟨a, w', h'⟩ := h.goes (h.storming hsim ht hrequests).sound hfinished
        have hless : 13 * requests.length < (actions ++ [a]).length + left := by
          rw [List.length_append, List.length_singleton]
          omega
        obtain ⟨more, after, h'', hfinished'⟩ := ih h' hless
        rw [List.append_assoc] at h''
        exact ⟨a :: more, after, h'', hfinished'⟩

end Course

/-- Whatever is drawn, a simulation balances whose initial balances are in whole cents and can be
added up. The bound of the amounts can be computed, one transfer after another is made or refused
for want of money, and in the end the accounts hold what was paid in. So it is also when the
transfers are called at the same time: they come to an end after thirteen steps each at the most,
from wherever they have got to, and however their steps were interleaved, the report is as it should
be. -/
theorem always_balances (hsim : sim.Payable) (config : Config) (clock : Nat → Timestamp)
    (draws : Draws) :
    (2 ≤ sim.accounts →
      (sim.initialBalance.mul? ⟨false, 25, 0, by decide, by decide⟩).isSome = true) ∧
    (∃ r, sim.run config clock draws = .ok r ∧ r.Balances sim) ∧
    ∃ d t requests, sim.openAccounts config clock = .ok d ∧ d.service.store.tables = t ∧
      sim.plan t.accounts draws = requests ∧
      ∀ actions w, Course config t requests actions w →
        actions.length ≤ 13 * sim.transfers ∧
        (∃ more after, Course config t requests (actions ++ more) after ∧
          Finished requests after) ∧
        (Finished requests w → ∃ r, sim.conclude t.accounts w = .ok r ∧ r.Balances sim) := by
  refine ⟨hsim.mul?_isSome, run_balances hsim config clock draws, ?_⟩
  obtain ⟨d, t, hopened, hready, hfunded⟩ := openAccounts_ok hsim config clock
  refine ⟨d, t, sim.plan t.accounts draws, hopened, by rw [hready.store], rfl, ?_⟩
  intro actions w hcourse
  have hlength := length_plan_eq hfunded.toOpened draws
  have hplanned := hfunded.toOpened.planned draws
  refine ⟨?_, hcourse.exists_finished hsim hfunded.balanced hplanned, ?_⟩
  · refine hcourse.length_le.trans (Nat.mul_le_mul_left 13 ?_)
    rw [hlength]
    split <;> omega
  · intro hfinished
    exact (hcourse.storming hsim hfunded.balanced hplanned).conclude_balances hsim hfinished
      hfunded.length hlength

/-- Two hundred transfers between six accounts. -/
def small : Simulation :=
  ⟨6, 200, some 4, 7, .cents 5000⟩

theorem always_balances_small :
    small.Payable ∧
      (∃ r, small.run .standard (fun _ => .epoch) (.ofSeed 7) = .ok r ∧ r.attempted = 200 ∧
        r.totalBalance.value = 300) ∧
      ∃ d t requests actions w r,
        small.openAccounts .standard (fun _ => .epoch) = .ok d ∧ d.service.store.tables = t ∧
        small.plan t.accounts (.ofSeed 7) = requests ∧
        Course .standard t requests actions w ∧ Finished requests w ∧
        small.conclude t.accounts w = .ok r ∧ r.attempted = 200 ∧
        r.tally.committed + r.tally.insufficientFunds = 200 ∧ r.totalBalance.value = 300 := by
  have hvalue : small.initialBalance.value = 50 := by
    rw [show small.initialBalance = .cents 5000 from rfl, Decimal.value_cents]
    norm_num
  have hsmall : small.Payable := by
    refine ⟨?_, ⟨5000, ?_⟩, ?_⟩
    · rw [hvalue]
      norm_num
    · rw [hvalue]
      norm_num
    · rw [hvalue, show small.accounts = 6 from rfl]
      norm_num
  have hbalances : ∀ {r : Result}, r.Balances small → r.attempted = 200 ∧
      r.tally.committed + r.tally.insufficientFunds = 200 ∧ r.totalBalance.value = 300 := by
    intro r hr
    have hattempted : r.attempted = 200 := hr.attempted
    refine ⟨hattempted, hr.settled.trans hattempted, ?_⟩
    rw [hr.total, hvalue, show small.accounts = 6 from rfl]
    norm_num
  obtain ⟨-, ⟨r, hrun, hr⟩, d, t, requests, hopened, htables, hplan, hcourses⟩ :=
    always_balances hsmall .standard (fun _ => .epoch) (.ofSeed 7)
  have hstart : Course .standard t requests [] (World.start t) :=
    ⟨rfl, by simp, List.nil_prefix⟩
  obtain ⟨-, ⟨actions, w, hcourse, hfinished⟩, -⟩ := hcourses [] _ hstart
  obtain ⟨-, -, hends⟩ := hcourses actions w hcourse
  obtain ⟨r', hconclude, hr'⟩ := hends hfinished
  refine ⟨hsmall, ⟨r, hrun, (hbalances hr).1, (hbalances hr).2.2⟩, d, t, requests, actions, w, r',
    hopened, htables, hplan, hcourse, hfinished, hconclude, hbalances hr'⟩

end Simulation

end Ledger
