import Ledger.Proofs.Call.LockOrder
import Ledger.Proofs.Concurrent.Outcome
import Mathlib.Data.Finset.Max
import Mathlib.Data.Finset.Range
import Mathlib.Logic.Relation

namespace Ledger

theorem Store.waitsFor_of_perform {s : Store} {u : UnitId} {now : Timestamp} {c : StoreCall}
    (h : s.perform u now c = none) : ∃ id, s.waitsFor u c = some id := by
  cases c with
  | saveAccount row =>
      simp only [perform] at h
      split at h
      · cases h
      · split at h
        · rename_i hlocked
          exact ⟨row.id, if_pos hlocked⟩
        · split at h <;> cases h
  | lock id =>
      simp only [perform] at h
      split at h
      · cases h
      · split at h
        · cases h
        · rename_i hfree
          split at h
          · cases h
          · split at h
            · rename_i hlocked
              exact ⟨id, by simp [waitsFor, hfree, hlocked]⟩
            · cases h
  | _ => cases h

namespace Concurrent

variable {config : Config} {faults : Bool} {t : Tables} {w : World} {actions : List Action}
  {j k : CallId} {c : Call} {id other : AccountId}

/-- Whether a move is a call's own doing, and not a failure of the store, the end of the call's
time or the will of its caller. -/
def Move.isOwn : Move → Bool
  | perform _ | release | finish | announce _ => true
  | fail _ | expire | cancel => false

namespace World

/-- The row that a call waits for. -/
def awaits? (w : World) (k : CallId) : Option AccountId :=
  match w.calls[k]?.map Call.stage with
  | some (.working (.call request _)) => w.store.waitsFor k request
  | _ => none

/-- A call waits for a row that another call holds. -/
def WaitsOn (w : World) (k j : CallId) : Prop :=
  ∃ id, w.awaits? k = some id ∧ (w.store.unit j).holds id = true

/-- Some step of the call is its own doing. -/
def Advances (config : Config) (w : World) (k : CallId) : Prop :=
  ∃ m w', m.isOwn = true ∧ w.step config (.move k m) = some w'

theorem awaits?_of_stage {request : StoreCall} {next : request.Answer → Work Reply}
    (hcall : w.calls[k]? = some c) (hstage : c.stage = .working (.call request next)) :
    w.awaits? k = w.store.waitsFor k request := by
  rw [awaits?, hcall, Option.map_some, hstage]

theorem stage_of_awaits? (h : w.awaits? k = some id) :
    ∃ c request next, w.calls[k]? = some c ∧ c.stage = .working (.call request next) ∧
      w.store.waitsFor k request = some id := by
  unfold awaits? at h
  split at h
  · rename_i request next hstage
    obtain ⟨c, hcall, hstage⟩ := Option.map_eq_some_iff.mp hstage
    exact ⟨c, request, next, hcall, hstage, h⟩
  · cases h

theorem advances_of_step {m : Move} {s : Store} {stage : Stage} (hm : m.isOwn = true)
    (hcall : w.calls[k]? = some c) (hstep : c.step config w.store k m = some (s, stage)) :
    w.Advances config k := by
  refine ⟨m, { store := s, calls := w.calls.set k { c with stage } }, hm, ?_⟩
  simp only [World.step, hcall, hstep, Option.map_some]

theorem advances_or_awaits (config : Config) (hcall : w.calls[k]? = some c)
    (hopen : c.stage.isOver = false) : w.Advances config k ∨ ∃ id, w.awaits? k = some id := by
  cases hstage : c.stage with
  | working rest =>
      cases rest with
      | done result =>
          refine .inl ?_
          cases result with
          | ok reply =>
              cases hevent : reply.event? with
              | some event =>
                  have hstep : c.step config w.store k .finish =
                      some (w.store.drop k, .announcing reply event) := by
                    simp only [Call.step, hstage, hevent]
                  exact advances_of_step rfl hcall hstep
              | none =>
                  have hstep : c.step config w.store k .finish =
                      some (w.store.drop k, .returned (.ok reply)) := by
                    simp only [Call.step, hstage, hevent]
                  exact advances_of_step rfl hcall hstep
          | error e =>
              have hstep : c.step config w.store k .finish =
                  some (w.store.drop k, .returned (.error e)) := by
                simp only [Call.step, hstage]
              exact advances_of_step rfl hcall hstep
      | call request next =>
          by_cases hcommit : request = .commit
          · subst hcommit
            have hstep : c.step config w.store k (.perform .epoch) =
                some ((w.store.write k .epoch).1,
                  .releasing (next (w.store.write k .epoch).2)) := by
              simp only [Call.step, hstage]
            exact .inl (advances_of_step rfl hcall hstep)
          · cases hperform : w.store.perform k .epoch request with
            | some done =>
                have hstep : c.step config w.store k (.perform .epoch) = _ :=
                  step_perform .epoch hstage hcommit
                rw [hperform, Option.map_some] at hstep
                exact .inl (advances_of_step rfl hcall hstep)
            | none =>
                refine .inr ?_
                rw [awaits?_of_stage hcall hstage]
                exact Store.waitsFor_of_perform hperform
  | releasing rest =>
      have hstep : c.step config w.store k .release =
          some (w.store.release k, .working rest) := by
        simp only [Call.step, hstage]
      exact .inl (advances_of_step rfl hcall hstep)
  | announcing reply event =>
      have hstep : c.step config w.store k (.announce (.ok ())) =
          some (w.store, .returned (.ok reply)) := by
        simp only [Call.step, hstage]
      exact .inl (advances_of_step rfl hcall hstep)
  | _ =>
      rw [hstage] at hopen
      cases hopen

namespace Sound

variable (hw : w.Sound config faults)

include hw

theorem lt_of_awaits (h : w.awaits? k = some id) (hother : (w.store.unit k).holds other = true) :
    other < id := by
  obtain ⟨c, request, next, hcall, hstage, hwaits⟩ := stage_of_awaits? h
  have hc := hw.calls k c hcall
  unfold Call.Sound at hc
  rw [hstage] at hc
  cases request with
  | lock row =>
      simp only [Store.waitsFor] at hwaits
      split at hwaits
      · cases hwaits
        rcases hc with hreaches | ⟨-, hfailed⟩
        · exact hreaches.lt_of_holds (Work.ascending_program c.request config) hother
        · cases hfailed.of_call.1
      · cases hwaits
  | saveAccount row => exact absurd rfl (ne_saveAccount hc row)
  | _ => cases hwaits

theorem waitsOn_of_awaits (h : w.awaits? k = some id) :
    ∃ j, ∃ c : Call, w.WaitsOn k j ∧ (w.store.unit j).holds id = true ∧
      w.calls[j]? = some c ∧ c.stage.isOver = false := by
  obtain ⟨-, request, -, -, -, hwaits⟩ := stage_of_awaits? h
  have hlocked : w.store.isLocked id = true := by
    cases request with
    | lock row =>
        simp only [Store.waitsFor] at hwaits
        split at hwaits
        · rename_i hlocked
          cases hwaits
          exact (Bool.and_eq_true_iff.mp hlocked).2
        · cases hwaits
    | saveAccount row =>
        simp only [Store.waitsFor] at hwaits
        split at hwaits
        · cases hwaits
          assumption
        · cases hwaits
    | _ => cases hwaits
  obtain ⟨j, hj⟩ := hw.store.isLocked_iff.mp hlocked
  have hlt : j < w.calls.length := by
    by_contra hge
    rw [hw.idle j (Nat.le_of_not_lt hge)] at hj
    cases hj
  have hcall : w.calls[j]? = some w.calls[j] := List.getElem?_eq_getElem hlt
  refine ⟨j, _, ⟨id, h, hj⟩, hj, hcall, ?_⟩
  cases hover : w.calls[j].stage.isOver with
  | false => rfl
  | true =>
      rw [(hw.calls j _ hcall).unit_of_isOver hover] at hj
      cases hj

theorem lt_of_waitsOn {awaited : AccountId} (h : Relation.TransGen w.WaitsOn k j)
    (hk : w.awaits? k = some id) (hj : w.awaits? j = some awaited) : id < awaited := by
  induction h generalizing awaited with
  | single hwaits =>
      obtain ⟨id', hid', hholds⟩ := hwaits
      rw [hk, Option.some.injEq] at hid'
      exact hw.lt_of_awaits hj (hid' ▸ hholds)
  | tail _ hwaits ih =>
      obtain ⟨between, hbetween, hholds⟩ := hwaits
      exact (ih hbetween).trans (hw.lt_of_awaits hj hholds)

/-- If some call is not over, then some call that is not over makes a step of its own: the one that
waits for the row with the largest id waits for a call that waits for none. -/
theorem exists_advances (hcall : w.calls[k]? = some c) (hopen : c.stage.isOver = false) :
    ∃ j, ∃ c : Call, w.calls[j]? = some c ∧ c.stage.isOver = false ∧ w.Advances config j := by
  let waiting := (Finset.range w.calls.length).filter fun k => (w.awaits? k).isSome
  rcases advances_or_awaits config hcall hopen with hadvances | ⟨id, hawaits⟩
  · exact ⟨k, c, hcall, hopen, hadvances⟩
  · have hmem : ∀ {k id}, w.awaits? k = some id → k ∈ waiting := by
      intro k id h
      obtain ⟨c, -, -, hcall, -, -⟩ := stage_of_awaits? h
      have hk := (List.getElem?_eq_some_iff.mp hcall).1
      exact Finset.mem_filter.mpr ⟨Finset.mem_range.mpr hk, by rw [h]; rfl⟩
    obtain ⟨last, hlast, hmax⟩ :=
      waiting.exists_max_image (fun k => (w.awaits? k).getD 0) ⟨k, hmem hawaits⟩
    obtain ⟨largest, hlargest⟩ := Option.isSome_iff_exists.mp (Finset.mem_filter.mp hlast).2
    obtain ⟨j, c', -, hholds, hcall', hopen'⟩ := hw.waitsOn_of_awaits hlargest
    rcases advances_or_awaits config hcall' hopen' with hadvances | ⟨id', hawaits'⟩
    · exact ⟨j, c', hcall', hopen', hadvances⟩
    · have hle := hmax j (hmem hawaits')
      rw [hawaits', hlargest] at hle
      exact absurd (hw.lt_of_awaits hawaits' hholds) (Nat.not_lt.mpr hle)

end Sound

end World

/-- Calls never block each other for good, whatever they ask for, however their steps are
interleaved, whichever of them are cancelled or run out of time and whatever fails. As long as some
call is not over, one of those that are not makes a step of its own; each of them does, unless it
waits for a row that another one holds; and no calls wait for each other in a cycle. -/
theorem no_deadlock (hrun : (World.start t).run config actions = some w) :
    (∀ (k : CallId) c, w.calls[k]? = some c → c.stage.isOver = false →
      ∃ j, ∃ c' : Call, w.calls[j]? = some c' ∧ c'.stage.isOver = false ∧ w.Advances config j) ∧
    (∀ (k : CallId) c, w.calls[k]? = some c → c.stage.isOver = false → ¬w.Advances config k →
      ∃ j, ∃ c' : Call, w.WaitsOn k j ∧ w.calls[j]? = some c' ∧ c'.stage.isOver = false) ∧
    ∀ k, ¬Relation.TransGen w.WaitsOn k k := by
  have hw := (World.sound_start config true t).run (fun _ _ _ => rfl) hrun
  refine ⟨fun k c hcall hopen => hw.exists_advances hcall hopen, ?_, ?_⟩
  · intro k c hcall hopen hstuck
    rcases World.advances_or_awaits config hcall hopen with hadvances | ⟨id, hawaits⟩
    · exact absurd hadvances hstuck
    · obtain ⟨j, c', hwaits, -, hcall', hopen'⟩ := hw.waitsOn_of_awaits hawaits
      exact ⟨j, c', hwaits, hcall', hopen'⟩
  · intro k hcycle
    obtain ⟨j, ⟨id, hawaits, -⟩, -⟩ := Relation.TransGen.head'_iff.mp hcycle
    exact Nat.lt_irrefl _ (hw.lt_of_waitsOn hcycle hawaits hawaits)

/-- Two transfers between the same accounts in opposite directions: the second one waits for the
first of the two rows, and the first one goes on. -/
theorem no_deadlock_opposite_transfers :
    ∃ w, (World.start {}).run .standard
        ([.invoke (.openAccount 1 "savings" "usd"), .move 0 (.perform .epoch),
            .invoke (.openAccount 2 "savings" "usd"), .move 1 (.perform .epoch),
            .invoke (.transfer ⟨1, 1, 2, ⟨false, 2, 0, by decide, by decide⟩, "", .external⟩),
            .invoke (.transfer ⟨2, 2, 1, ⟨false, 3, 0, by decide, by decide⟩, "", .external⟩)] ++
          List.replicate 3 (.move 3 (.perform .epoch)) ++
          List.replicate 4 (.move 2 (.perform .epoch))) = some w ∧
      w.awaits? 3 = some 1 ∧ (∃ j, w.Advances .standard j) ∧
      ∀ k, ¬Relation.TransGen w.WaitsOn k k := by
  have hwaits : ((World.start {}).run .standard
        ([.invoke (.openAccount 1 "savings" "usd"), .move 0 (.perform .epoch),
            .invoke (.openAccount 2 "savings" "usd"), .move 1 (.perform .epoch),
            .invoke (.transfer ⟨1, 1, 2, ⟨false, 2, 0, by decide, by decide⟩, "", .external⟩),
            .invoke (.transfer ⟨2, 2, 1, ⟨false, 3, 0, by decide, by decide⟩, "", .external⟩)] ++
          List.replicate 3 (.move 3 (.perform .epoch)) ++
          List.replicate 4 (.move 2 (.perform .epoch)))).map (fun w => w.awaits? 3) =
      some (some 1) := by
    decide +kernel
  obtain ⟨w, hrun, hwaits⟩ := Option.map_eq_some_iff.mp hwaits
  obtain ⟨hadvances, -, hacyclic⟩ := no_deadlock hrun
  obtain ⟨c, request, next, hcall, hstage, -⟩ := World.stage_of_awaits? hwaits
  obtain ⟨j, -, -, -, hj⟩ := hadvances 3 c hcall (by rw [hstage]; rfl)
  exact ⟨w, hrun, hwaits, ⟨j, hj⟩, hacyclic⟩

end Concurrent

end Ledger
