import Ledger.Proofs.Call.Effect
import Ledger.Proofs.Call.Reaches

namespace Ledger.Concurrent

/-- Calls are numbered in the order of their invocation. The number is also the id of the call's
unit of work. -/
abbrev CallId := Nat

/-- How far a call has come. Its store work is followed by the release of its rows if it was
committed, and then by the announcement of what has changed. -/
inductive Stage where
  | working (rest : Work Reply)
  | releasing (rest : Work Reply)
  | announcing (reply : Reply) (event : Event)
  | returned (result : Except LedgerError Reply)
  | expired (limit : Nat)
  | dropped (committed : Option Reply)

/-- Whether the store work of a call is still going on. -/
def Stage.isPending : Stage → Bool
  | working (.call ..) => true
  | _ => false

structure Call where
  request : Request
  stage : Stage

/-- What can happen to a call: a call of the store is answered or fails unmade, the rows of a
committed unit of work are released, the store work is over, the announcement has succeeded or
failed, the time of the store work has run out, or the caller drops the call. -/
inductive Move where
  | perform (now : Timestamp)
  | fail (e : StoreError)
  | release
  | finish
  | announce (outcome : Except PublishError Unit)
  | expire
  | cancel

/-- One step of the call with the given number. There is none while the call waits for a row. -/
def Call.step (config : Config) (s : Store) (k : CallId) (c : Call) : Move → Option (Store × Stage)
  | .perform now =>
      match c.stage with
      | .working (.call .commit next) =>
          some ((s.write k now).1, .releasing (next (s.write k now).2))
      | .working (.call request next) =>
          (s.perform k now request).map fun (s, answer) => (s, .working (next answer))
      | _ => none
  | .fail e =>
      match c.stage with
      | .working (.call _ next) => some (s, .working (next (.error e)))
      | _ => none
  | .release =>
      match c.stage with
      | .releasing rest => some (s.release k, .working rest)
      | _ => none
  | .finish =>
      match c.stage with
      | .working (.done (.ok reply)) =>
          match reply.event? with
          | some event => some (s.drop k, .announcing reply event)
          | none => some (s.drop k, .returned (.ok reply))
      | .working (.done (.error e)) => some (s.drop k, .returned (.error e))
      | _ => none
  | .announce outcome =>
      match c.stage, outcome with
      | .announcing reply _, .ok () => some (s, .returned (.ok reply))
      | .announcing _ event, .error cause =>
          some (s, .returned (.error (.publishFailure event.topic cause)))
      | _, _ => none
  | .expire =>
      match c.stage, config.timeout with
      | .working (.call ..), some limit => some (s.drop k, .expired limit.millis)
      | _, _ => none
  | .cancel =>
      match c.stage with
      | .working (.call ..) => some (s.drop k, .dropped none)
      | .announcing reply _ => some (s, .dropped (some reply))
      | _ => none

/-- A store with all calls that have been invoked so far. -/
structure World where
  store : Store := {}
  calls : List Call := []

inductive Action where
  | invoke (r : Request)
  | move (k : CallId) (m : Move)

namespace World

/-- The world in which nothing has been asked yet. -/
def start (t : Tables) : World where
  store := { tables := t }

/-- The work of a call does nothing before its first step. -/
def invoke (config : Config) (w : World) (r : Request) : World :=
  { w with calls := w.calls ++ [⟨r, .working (r.program config)⟩] }

def step (config : Config) (w : World) : Action → Option World
  | .invoke r => some (w.invoke config r)
  | .move k m =>
      match w.calls[k]? with
      | none => none
      | some c =>
          (c.step config w.store k m).map fun (store, stage) =>
            { store, calls := w.calls.set k { c with stage } }

/-- Takes steps of any calls, in the given order. -/
def run (config : Config) : World → List Action → Option World
  | w, [] => some w
  | w, a :: rest => (w.step config a).bind fun w' => w'.run config rest

/-- A world that some steps lead to from an empty store. -/
def Reachable (config : Config) (w : World) : Prop :=
  ∃ actions, (start {}).run config actions = some w

variable {config : Config} {w w' : World}

theorem run_cons {a : Action} {rest : List Action} (h : w.run config (a :: rest) = some w') :
    ∃ w₁, w.step config a = some w₁ ∧ w₁.run config rest = some w' :=
  Option.bind_eq_some_iff.mp h

theorem run_append (w : World) (pre post : List Action) :
    w.run config (pre ++ post) = (w.run config pre).bind fun w₁ => w₁.run config post := by
  induction pre generalizing w with
  | nil => rfl
  | cons a rest ih =>
      rw [List.cons_append, run, run, Option.bind_assoc]
      congr 1
      funext w₁
      exact ih w₁

theorem run_concat {w'' : World} {actions : List Action} {a : Action}
    (hrun : w.run config actions = some w') (hstep : w'.step config a = some w'') :
    w.run config (actions ++ [a]) = some w'' := by
  rw [run_append, hrun, Option.bind_some, run, hstep]
  rfl

theorem Reachable.step {a : Action} (h : w.Reachable config) (hstep : w.step config a = some w') :
    w'.Reachable config := by
  obtain ⟨actions, hrun⟩ := h
  exact ⟨actions ++ [a], run_concat hrun hstep⟩

theorem step_move {k : CallId} {m : Move} (h : w.step config (.move k m) = some w') :
    ∃ c store stage, w.calls[k]? = some c ∧ c.step config w.store k m = some (store, stage) ∧
      w' = { store, calls := w.calls.set k { c with stage } } := by
  simp only [step] at h
  cases hcall : w.calls[k]? with
  | none =>
      rw [hcall] at h
      cases h
  | some c =>
      rw [hcall] at h
      obtain ⟨⟨store, stage⟩, hstep, rfl⟩ := Option.map_eq_some_iff.mp h
      exact ⟨c, store, stage, rfl, hstep, rfl⟩

end World

end Ledger.Concurrent
