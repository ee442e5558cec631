import Ledger.Proofs.Concurrent.Invariant
import Mathlib.Data.List.Forall2

namespace Ledger

/-- The place of a call in a run of calls one after another, with the clock reading that it is
given there. -/
structure Turn where
  call : Concurrent.CallId
  now : Timestamp
  request : Request

/-- Answers requests one after another. -/
def Service.serve : Service → List Turn → Service × List (Except LedgerError Reply)
  | s, [] => (s, [])
  | s, turn :: rest =>
      ((serve (s.call turn.now turn.request).1 rest).1,
        (s.call turn.now turn.request).2 :: (serve (s.call turn.now turn.request).1 rest).2)

namespace Concurrent

variable {config : Config} {w w' : World} {a : Action} {actions : List Action}

/-- Whether an action can happen while the store works and all events are taken. -/
def Action.isOrdinary : Action → Bool
  | .move _ (.fail _) | .move _ (.announce (.error _)) => false
  | _ => true

/-- Whether the caller has given a call up, or its time has run out, before it did anything. -/
def Stage.isGivenUp : Stage → Bool
  | expired _ | dropped none => true
  | _ => false

/-- What the store work of a call has come to. -/
def Stage.result? : Stage → Option (Except LedgerError Reply)
  | working (.done result) | releasing (.done result) | returned result => some result
  | announcing reply _ | dropped (some reply) => some (.ok reply)
  | _ => none

namespace World

def isPending (w : World) (k : CallId) : Bool :=
  w.calls[k]?.any (·.stage.isPending)

def result? (w : World) (k : CallId) : Option (Except LedgerError Reply) :=
  w.calls[k]?.bind (·.stage.result?)

/-- The turn that a step gives to a call. A call has its turn when its last call of the store is
answered, or at once if its arguments are refused. -/
def turn? (w w' : World) : Action → Option Turn
  | .invoke r =>
      if w'.isPending w.calls.length then none else some ⟨w.calls.length, default, r⟩
  | .move k (.perform now) =>
      if w'.isPending k then none else w.calls[k]?.map fun c => ⟨k, now, c.request⟩
  | _ => none

/-- The turns that calls are given in the course of a run. -/
def turns (config : Config) : World → List Action → List Turn
  | _, [] => []
  | w, a :: rest =>
      match w.step config a with
      | none => []
      | some w' => (w.turn? w' a).toList ++ w'.turns config rest

section Step

variable {k j : CallId} {c : Call} {stage : Stage} {m : Move}

theorem result?_moved (hcall : w.calls[k]? = some c)
    (hcalls : w'.calls = w.calls.set k { c with stage }) : w'.result? k = stage.result? := by
  rw [result?, hcalls, List.getElem?_set_self (List.getElem?_eq_some_iff.mp hcall).1]
  rfl

theorem result?_other (hjk : j ≠ k) (hcalls : w'.calls = w.calls.set k { c with stage }) :
    w'.result? j = w.result? j := by
  rw [result?, hcalls, List.getElem?_set_ne (Ne.symm hjk)]
  rfl

theorem isPending_moved (hcall : w.calls[k]? = some c)
    (hcalls : w'.calls = w.calls.set k { c with stage }) : w'.isPending k = stage.isPending := by
  rw [isPending, hcalls, List.getElem?_set_self (List.getElem?_eq_some_iff.mp hcall).1]
  rfl

/-- What a step does to the tables and to the results of the calls, in view of the turn that it
gives. -/
inductive Turned (config : Config) (w w' : World) : Option Turn → Prop
  | stays (tables : w'.store.tables = w.store.tables) (results : ∀ k, w'.result? k = w.result? k) :
      Turned config w w' none
  | takes {turn : Turn} {result : Except LedgerError Reply}
      (outcome : turn.request.outcome config turn.now w.store.tables = (w'.store.tables, result))
      (before : w.result? turn.call = none) (after : w'.result? turn.call = some result)
      (request : w'.calls[turn.call]?.map Call.request = some turn.request)
      (others : ∀ k, k ≠ turn.call → w'.result? k = w.result? k) :
      Turned config w w' (some turn)

theorem turned_none (hcall : w.calls[k]? = some c)
    (hcalls : w'.calls = w.calls.set k { c with stage })
    (hturn : w.turn? w' (.move k m) = none) (htables : w'.store.tables = w.store.tables)
    (hresult : stage.result? = c.stage.result?) :
    Turned config w w' (w.turn? w' (.move k m)) := by
  rw [hturn]
  refine .stays htables ?_
  intro j
  rcases Decidable.em (j = k) with rfl | hjk
  · rw [result?_moved hcall hcalls, hresult, result?, hcall]
    rfl
  · exact result?_other hjk hcalls

theorem turned_move (hordinary : (Action.move k m).isOrdinary = true)
    (hcall : w.calls[k]? = some c) (hcalls : w'.calls = w.calls.set k { c with stage })
    (h : Progress config false c.request w.store.tables m c.stage stage w'.store.tables) :
    Turned config w w' (w.turn? w' (.move k m)) := by
  have hpending := isPending_moved hcall hcalls
  generalize hstage : c.stage = before at h
  generalize htables : w'.store.tables = t' at h
  cases h with
  | goes =>
      refine turned_none hcall hcalls ?_ htables (by rw [hstage]; rfl)
      cases m <;> first | rfl | simp [turn?, hpending, Stage.isPending]
  | @ends now request next _ result _ outcome _ settled =>
      have hturn : w.turn? w' (.move k (.perform now)) = some ⟨k, now, c.request⟩ := by
        rcases settled with rfl | rfl <;> simp [turn?, hpending, Stage.isPending, hcall]
      rw [hturn]
      refine .takes (htables ▸ outcome) ?_ ?_ ?_ ?_
      · rw [result?, hcall]
        simp [hstage, Stage.result?]
      · rw [result?_moved hcall hcalls]
        rcases settled with rfl | rfl <;> rfl
      · rw [hcalls, List.getElem?_set_self (List.getElem?_eq_some_iff.mp hcall).1]
        rfl
      · exact fun j hjk => result?_other hjk hcalls
  | ends_at_fault fault => cases fault
  | fails fault => cases fault
  | unannounced => cases hordinary
  | _ => exact turned_none hcall hcalls rfl htables (by rw [hstage]; rfl)

theorem result?_invoke_of_ne (r : Request) (hk : k ≠ w.calls.length) :
    (w.invoke config r).result? k = w.result? k := by
  have hcalls : (w.invoke config r).calls[k]? = w.calls[k]? := by
    rcases Nat.lt_or_gt_of_ne hk with hlt | hgt
    · exact List.getElem?_append_left hlt
    · rw [List.getElem?_eq_none (Nat.le_of_lt hgt), List.getElem?_eq_none]
      rw [invoke, List.length_append]
      exact hgt
  rw [result?, hcalls, result?]

theorem turned_invoke (w : World) (r : Request) :
    Turned config w (w.invoke config r) (w.turn? (w.invoke config r) (.invoke r)) := by
  have hnew : (w.invoke config r).calls[w.calls.length]? =
      some ⟨r, .working (r.program config)⟩ := List.getElem?_concat_length
  have hbefore : w.result? w.calls.length = none := by
    rw [result?, List.getElem?_eq_none (Nat.le_refl _)]
    rfl
  cases hprogram : r.program config with
  | done result =>
      rw [hprogram] at hnew
      have hturn : w.turn? (w.invoke config r) (.invoke r) = some ⟨w.calls.length, default, r⟩ := by
        simp [turn?, isPending, hnew, Stage.isPending]
      rw [hturn]
      have houtcome : r.outcome config default w.store.tables = (w.store.tables, result) := by
        rw [Request.outcome, hprogram]
        rfl
      refine .takes houtcome hbefore ?_ ?_ ?_
      · rw [result?, hnew]
        rfl
      · rw [hnew]
        rfl
      · exact fun k hk => result?_invoke_of_ne r hk
  | call request next =>
      rw [hprogram] at hnew
      have hturn : w.turn? (w.invoke config r) (.invoke r) = none := by
        simp [turn?, isPending, hnew, Stage.isPending]
      rw [hturn]
      refine .stays rfl ?_
      intro k
      rcases Decidable.em (k = w.calls.length) with rfl | hk
      · rw [hbefore, result?, hnew]
        rfl
      · exact result?_invoke_of_ne r hk

theorem Sound.turned (hw : w.Sound config false) (hordinary : a.isOrdinary = true)
    (h : w.step config a = some w') : Turned config w w' (w.turn? w' a) := by
  cases a with
  | invoke r =>
      cases h
      exact turned_invoke w r
  | move k m =>
      have hfaults : ∀ e, m = .fail e → false = true := by
        rintro e rfl
        cases hordinary
      obtain ⟨c, stage, hcall, hcalls, hstepped⟩ := hw.stepped hfaults h
      exact turned_move hordinary hcall hcalls hstepped.progress

theorem Turned.result?_mono {turn : Option Turn} (h : Turned config w w' turn)
    {result : Except LedgerError Reply} (hresult : w.result? k = some result) :
    w'.result? k = some result := by
  cases h with
  | stays _ results => rw [results, hresult]
  | takes _ before _ _ others =>
      refine (others k ?_).trans hresult
      rintro rfl
      rw [before] at hresult
      cases hresult

end Step

theorem isFault_of_isOrdinary (h : a.isOrdinary = true) : a.isFault = true → false = true := by
  intro hfault
  unfold Action.isFault at hfault
  split at hfault
  · cases h
  · exact hfault

theorem Sound.ordinary_cons {rest : List Action} (hw : w.Sound config false)
    (hordinary : ∀ b ∈ a :: rest, b.isOrdinary = true)
    (hrun : w.run config (a :: rest) = some w') :
    ∃ w₁ given, w.step config a = some w₁ ∧ w₁.run config rest = some w' ∧
      w₁.Sound config false ∧ (∀ b ∈ rest, b.isOrdinary = true) ∧ Turned config w w₁ given ∧
      w.turns config (a :: rest) = given.toList ++ w₁.turns config rest := by
  obtain ⟨w₁, hstep, hrest⟩ := run_cons hrun
  have ha := hordinary a (by simp)
  refine ⟨w₁, w.turn? w₁ a, hstep, hrest, hw.step (isFault_of_isOrdinary ha) hstep, ?_,
    hw.turned ha hstep, ?_⟩
  · exact fun b hb => hordinary b (by simp [hb])
  · simp only [turns, hstep]

theorem turns_append {pre post : List Action} (hrun : w.run config pre = some w') :
    w.turns config (pre ++ post) = w.turns config pre ++ w'.turns config post := by
  induction pre generalizing w with
  | nil =>
      cases hrun
      rfl
  | cons a rest ih =>
      obtain ⟨w₁, hstep, hrest⟩ := run_cons hrun
      simp only [List.cons_append, turns, hstep, ih hrest, List.append_assoc]

theorem run_of_append {pre post : List Action} {between : World}
    (hpre : w.run config pre = some between) (hrun : w.run config (pre ++ post) = some w') :
    between.run config post = some w' := by
  rw [run_append, hpre] at hrun
  exact hrun

theorem turn?_of_last {k : CallId} {now : Timestamp} {c : Call} {request : StoreCall}
    {next : request.Answer → Work Reply} (hw : w.Sound config false)
    (hcall : w.calls[k]? = some c) (hstage : c.stage = .working (.call request next))
    (hlast : request.isTentative = false)
    (hstep : w.step config (.move k (.perform now)) = some w') :
    w.turn? w' (.move k (.perform now)) = some ⟨k, now, c.request⟩ := by
  obtain ⟨c', stage, hcall', hcalls, hstepped⟩ := hw.stepped (by rintro e ⟨⟩) hstep
  rw [hcall] at hcall'
  cases hcall'
  have hpending := isPending_moved hcall hcalls
  have hprogress := hstepped.progress
  rw [hstage] at hprogress
  generalize w'.store.tables = t' at hprogress
  have hsettled : stage.isPending = false := by
    cases hprogress with
    | goes tentative =>
        rw [tentative rfl] at hlast
        cases hlast
    | ends _ _ settled => rcases settled with rfl | rfl <;> rfl
    | ends_at_fault fault => cases fault
    | fails fault => cases fault
  simp only [turn?, hpending, hsettled, hcall, Bool.false_eq_true, if_false, Option.map_some]

theorem request_step {k : CallId} {r : Request} (hstep : w.step config a = some w')
    (h : w.calls[k]?.map Call.request = some r) : w'.calls[k]?.map Call.request = some r := by
  obtain ⟨c, hcall, rfl⟩ := Option.map_eq_some_iff.mp h
  cases a with
  | invoke r' =>
      cases hstep
      rw [invoke, List.getElem?_append_left (List.getElem?_eq_some_iff.mp hcall).1]
      exact h
  | move j m =>
      obtain ⟨c', store, stage, hcall', -, rfl⟩ := step_move hstep
      rcases Decidable.em (j = k) with rfl | hjk
      · rw [hcall] at hcall'
        cases hcall'
        rw [List.getElem?_set_self (List.getElem?_eq_some_iff.mp hcall).1]
        rfl
      · rw [List.getElem?_set_ne hjk]
        exact h

theorem request_run {k : CallId} {r : Request} (hrun : w.run config actions = some w')
    (h : w.calls[k]?.map Call.request = some r) : w'.calls[k]?.map Call.request = some r := by
  induction actions generalizing w with
  | nil =>
      cases hrun
      exact h
  | cons a rest ih =>
      obtain ⟨w₁, hstep, hrest⟩ := run_cons hrun
      exact ih hrest (request_step hstep h)

section Run

variable {k : CallId} (hw : w.Sound config false) (hordinary : ∀ a ∈ actions, a.isOrdinary = true)
  (hrun : w.run config actions = some w')

include hw hordinary hrun

theorem sound_ordinary : w'.Sound config false :=
  hw.run (fun a ha => isFault_of_isOrdinary (hordinary a ha)) hrun

theorem result?_run {result : Except LedgerError Reply} (hresult : w.result? k = some result) :
    w'.result? k = some result := by
  induction actions generalizing w with
  | nil =>
      cases hrun
      exact hresult
  | cons a rest ih =>
      obtain ⟨w₁, given, -, hrest, hw₁, hrest', hturned, -⟩ := hw.ordinary_cons hordinary hrun
      exact ih hw₁ hrest' hrest (hturned.result?_mono hresult)

theorem turns_spec {turn : Turn} (hturn : turn ∈ w.turns config actions) :
    w.result? turn.call = none ∧ (∃ result, w'.result? turn.call = some result) ∧
      w'.calls[turn.call]?.map Call.request = some turn.request := by
  induction actions generalizing w with
  | nil => cases hturn
  | cons a rest ih =>
      obtain ⟨w₁, given, -, hrest, hw₁, hrest', hturned, hturns⟩ := hw.ordinary_cons hordinary hrun
      rw [hturns] at hturn
      rcases List.mem_append.mp hturn with hnow | hlater
      · cases hturned with
        | stays => cases hnow
        | takes _ before after request _ =>
            obtain rfl := List.mem_singleton.mp hnow
            exact ⟨before, ⟨_, result?_run hw₁ hrest' hrest after⟩, request_run hrest request⟩
      · obtain ⟨hnone, hsome⟩ := ih hw₁ hrest' hrest hlater
        refine ⟨?_, hsome⟩
        cases hresult : w.result? turn.call with
        | none => rfl
        | some result =>
            rw [hturned.result?_mono hresult] at hnone
            cases hnone

theorem nodup_turns : ((w.turns config actions).map Turn.call).Nodup := by
  induction actions generalizing w with
  | nil => exact List.nodup_nil
  | cons a rest ih =>
      obtain ⟨w₁, given, -, hrest, hw₁, hrest', hturned, hturns⟩ := hw.ordinary_cons hordinary hrun
      have hnodup := ih hw₁ hrest' hrest
      rw [hturns]
      cases hturned with
      | stays => exact hnodup
      | takes _ _ after _ _ =>
          refine List.nodup_cons.mpr ⟨?_, hnodup⟩
          intro hmem
          obtain ⟨other, hother, hcall⟩ := List.mem_map.mp hmem
          have hnone := (turns_spec hw₁ hrest' hrest hother).1
          rw [hcall, after] at hnone
          cases hnone

theorem mem_turns {result : Except LedgerError Reply} (hbefore : w.result? k = none)
    (hafter : w'.result? k = some result) : k ∈ (w.turns config actions).map Turn.call := by
  induction actions generalizing w with
  | nil =>
      cases hrun
      rw [hbefore] at hafter
      cases hafter
  | cons a rest ih =>
      obtain ⟨w₁, given, -, hrest, hw₁, hrest', hturned, hturns⟩ := hw.ordinary_cons hordinary hrun
      rw [hturns, List.map_append, List.mem_append]
      cases hturned with
      | stays _ results => exact .inr (ih hw₁ hrest' hrest ((results k).trans hbefore))
      | @takes turn _ _ _ _ _ others =>
          rcases Decidable.em (k = turn.call) with rfl | hk
          · exact .inl (by simp)
          · exact .inr (ih hw₁ hrest' hrest ((others k hk).trans hbefore))

/-- The calls one after another, in the order of their turns, leave the same tables and come to the
same results. -/
theorem serve_turns {s : Service} (haccepts : s.Accepts) (hconfig : s.config = config)
    (hstore : s.store = { tables := w.store.tables }) :
    (s.serve (w.turns config actions)).1.store = { tables := w'.store.tables } ∧
      List.Forall₂ (fun turn result => w'.result? turn.call = some result)
        (w.turns config actions) (s.serve (w.turns config actions)).2 := by
  induction actions generalizing w s with
  | nil =>
      cases hrun
      exact ⟨hstore, .nil⟩
  | cons a rest ih =>
      obtain ⟨w₁, given, -, hrest, hw₁, hrest', hturned, hturns⟩ := hw.ordinary_cons hordinary hrun
      rw [hturns]
      cases hturned with
      | stays tables _ => exact ih hw₁ hrest' hrest haccepts hconfig (tables ▸ hstore)
      | @takes turn result outcome _ after _ _ =>
          obtain ⟨s₁, hcall, hstore₁, hconfig₁, haccepts₁⟩ :=
            haccepts.call hstore turn.now turn.request
          rw [hconfig, outcome] at hcall hstore₁
          obtain ⟨htables, hresults⟩ :=
            ih hw₁ hrest' hrest haccepts₁ (hconfig₁.trans hconfig) hstore₁
          simp only [Option.toList_some, List.singleton_append, Service.serve, hcall]
          exact ⟨htables, .cons (result?_run hw₁ hrest' hrest after) hresults⟩

end Run

end World

/-- Calls one after another explain a concurrent run: every call has at most one turn, and one that
was given up has none; every call that has returned has one; a call that had returned before another
one was invoked has the earlier turn; inserts and commits are given the clock readings that they had
in the run; and the tables and the results are the same. -/
structure Explains (s : Service) (t : Tables) (actions : List Action) (after : World)
    (order : List Turn) : Prop where
  nodup : (order.map Turn.call).Nodup
  own : ∀ turn ∈ order, ∃ c, after.calls[turn.call]? = some c ∧ c.request = turn.request ∧
    c.stage.isGivenUp = false
  complete : ∀ (k : CallId) c result, after.calls[k]? = some c → c.stage = .returned result →
    k ∈ order.map Turn.call
  realtime : ∀ pre post between i j c result, actions = pre ++ post →
    (World.start t).run s.config pre = some between → between.calls[i]? = some c →
    c.stage = .returned result → between.calls.length ≤ j → j ∈ order.map Turn.call →
    [i, j].Sublist (order.map Turn.call)
  clock : ∀ pre post between (k : CallId) now c request next,
    actions = pre ++ .move k (.perform now) :: post →
    (World.start t).run s.config pre = some between → between.calls[k]? = some c →
    c.stage = .working (.call request next) → request.isTentative = false →
    ∃ turn ∈ order, turn.call = k ∧ turn.now = now
  tables : (s.serve order).1.store = { tables := after.store.tables }
  results : List.Forall₂
    (fun turn result => ∀ c result', after.calls[turn.call]? = some c →
      c.stage = .returned result' → result' = result)
    order (s.serve order).2

section Explained

variable {s : Service} {t : Tables} {after between : World} {pre post : List Action}
  {k i j : CallId} {c : Call} {result : Except LedgerError Reply}

theorem result?_of_returned (hcall : w.calls[k]? = some c) (hstage : c.stage = .returned result) :
    w.result? k = some result := by
  rw [World.result?, hcall]
  exact congrArg Stage.result? hstage

theorem result?_start (t : Tables) (k : CallId) : (World.start t).result? k = none :=
  rfl

theorem lt_length_of_result? (h : w.result? k = some result) : k < w.calls.length := by
  obtain ⟨c, hcall, -⟩ := Option.bind_eq_some_iff.mp h
  exact (List.getElem?_eq_some_iff.mp hcall).1

/-- Every run of calls on a store that works and a bus that takes all events is explained by the
calls made one after another, in the order in which the last of their store calls were answered. -/
theorem linearizable (hstore : s.store = { tables := t }) (haccepts : s.Accepts)
    (hordinary : ∀ a ∈ actions, a.isOrdinary = true)
    (hrun : (World.start t).run s.config actions = some after) :
    ∃ order, Explains s t actions after order := by
  have hstart : (World.start t).Sound s.config false := World.sound_start s.config false t
  obtain ⟨htables, hresults⟩ :=
    World.serve_turns hstart hordinary hrun haccepts rfl hstore
  refine ⟨(World.start t).turns s.config actions, ?_, ?_, ?_, ?_, ?_, htables, ?_⟩
  · exact World.nodup_turns hstart hordinary hrun
  · intro turn hturn
    obtain ⟨-, ⟨result, hresult⟩, hrequest⟩ := World.turns_spec hstart hordinary hrun hturn
    obtain ⟨c, hcall, hsettled⟩ := Option.bind_eq_some_iff.mp hresult
    refine ⟨c, hcall, ?_, ?_⟩
    · rw [hcall] at hrequest
      exact Option.some.inj hrequest
    · generalize c.stage = stage at hsettled
      unfold Stage.isGivenUp
      split
      · cases hsettled
      · cases hsettled
      · rfl
  · intro k c result hcall hstage
    exact World.mem_turns hstart hordinary hrun (result?_start t k)
      (result?_of_returned hcall hstage)
  · rintro pre post between i j c result rfl hpre hcall hstage hj hmem
    have hordinary' : ∀ a ∈ pre, a.isOrdinary = true :=
      fun a ha => hordinary a (List.mem_append_left _ ha)
    have hi := World.mem_turns hstart hordinary' hpre (result?_start t i)
      (result?_of_returned hcall hstage)
    rw [World.turns_append hpre, List.map_append] at hmem ⊢
    rcases List.mem_append.mp hmem with hearly | hlate
    -- a turn this early would be one of a call that is yet to be invoked
    · obtain ⟨turn, hturn, rfl⟩ := List.mem_map.mp hearly
      obtain ⟨-, ⟨result', hresult'⟩, -⟩ := World.turns_spec hstart hordinary' hpre hturn
      exact absurd (lt_length_of_result? hresult') (Nat.not_lt.mpr hj)
    · exact List.Sublist.append (List.singleton_sublist.mpr hi) (List.singleton_sublist.mpr hlate)
  · rintro pre post between k now c request next rfl hpre hcall hstage hlast
    have hordinary' : ∀ a ∈ pre, a.isOrdinary = true :=
      fun a ha => hordinary a (List.mem_append_left _ ha)
    have hbetween := World.sound_ordinary hstart hordinary' hpre
    obtain ⟨w₁, hstep, -⟩ := World.run_cons (World.run_of_append hpre hrun)
    refine ⟨⟨k, now, c.request⟩, ?_, rfl, rfl⟩
    rw [World.turns_append hpre, List.mem_append, World.turns, hstep]
    right
    simp only [World.turn?_of_last hbetween hcall hstage hlast hstep, Option.toList_some,
      List.singleton_append, List.mem_cons, true_or]
  · refine hresults.imp ?_
    intro turn result hresult c result' hcall hstage
    rw [result?_of_returned hcall hstage] at hresult
    exact Option.some.inj hresult

/-- An account is opened; then a deposit and a close overlap, of which the close waits for the row
and is dropped. -/
theorem linearizable_overlapping :
    ∃ actions after order,
      actions = [.invoke (.openAccount 1 "savings" "usd"), .move 0 (.perform .epoch),
          .invoke (.close 1 1), .invoke (.deposit 1 1 ⟨false, 5, 0, by decide, by decide⟩),
          .move 1 (.perform .epoch), .move 2 (.perform .epoch), .move 1 (.perform .epoch),
          .move 2 (.perform .epoch), .move 2 (.perform .epoch), .move 1 .cancel, .move 0 .finish] ++
        List.replicate 3 (.move 2 (.perform .epoch)) ++
        [.move 2 .release, .move 2 .finish, .move 2 (.announce (.ok ()))] ∧
      (World.start {}).run .standard actions = some after ∧
      after.store.tables.accounts.map (·.balance.mantissa) = [500] ∧
      Explains (.start .standard) {} actions after order := by
  have hrows : ((World.start {}).run .standard
      ([.invoke (.openAccount 1 "savings" "usd"), .move 0 (.perform .epoch),
          .invoke (.close 1 1), .invoke (.deposit 1 1 ⟨false, 5, 0, by decide, by decide⟩),
          .move 1 (.perform .epoch), .move 2 (.perform .epoch), .move 1 (.perform .epoch),
          .move 2 (.perform .epoch), .move 2 (.perform .epoch), .move 1 .cancel, .move 0 .finish] ++
        List.replicate 3 (.move 2 (.perform .epoch)) ++
        [.move 2 .release, .move 2 .finish, .move 2 (.announce (.ok ()))])).map
        (fun w => w.store.tables.accounts.map (·.balance.mantissa)) = some [500] := by
    decide +kernel
  obtain ⟨after, hrun, hbalance⟩ := Option.map_eq_some_iff.mp hrows
  have haccepts : (Service.start .standard).Accepts := rfl
  obtain ⟨order, hexplains⟩ := linearizable rfl haccepts (by decide) hrun
  exact ⟨_, after, order, rfl, hrun, hbalance, hexplains⟩

end Explained

end Concurrent

end Ledger
