import Ledger.Proofs.Store.Locks

namespace Ledger

/-- Whether a call takes the lock of a row, or writes rows before it gives their locks up. -/
def StoreCall.isGradual : StoreCall → Bool
  | lock _ | saveAccount _ | commit => true
  | _ => false

/-- What a client of a store is in the middle of: it has the lock of a row that is yet to be read
for its unit of work; it has the lock of a row that is to be written, or has been written or
refused, without a unit of work; or it has written what its unit has staged and still holds the
rows. -/
inductive Activity where
  | idle
  | locking (id : AccountId)
  | saving (row : Account)
  | saved (id : AccountId)
  | committed
deriving DecidableEq

/-- Whether the lock of a row is held by what a client is in the middle of, and not by its unit of
work. -/
def Activity.guards (id : AccountId) : Activity → Bool
  | locking id' | saved id' => id' = id
  | saving row => row.id = id
  | idle | committed => false

/-- A store with its clients. The number of a client is also the id of its unit of work. -/
structure Clients where
  store : Store := {}
  activities : List Activity := []
deriving DecidableEq

namespace Clients

/-- What a client does next. Taking the lock of a row, reading or writing the row under it, and
giving it up are moves of their own. -/
inductive Move where
  | call (c : StoreCall) (now : Timestamp)
  | lock (id : AccountId)
  | read
  | save (row : Account)
  | write (now : Timestamp)
  | unlock
  | commit (now : Timestamp)
  | release
  | drop

/-- Clients that have done nothing yet. -/
def start (clients : Nat) (t : Tables) : Clients where
  store := { tables := t }
  activities := List.replicate clients .idle

/-- Whether nobody has the lock of a row. -/
def isFree (s : Clients) (id : AccountId) : Bool :=
  !s.store.isLocked id && s.activities.all fun activity => !activity.guards id

/-- The lock of a row can be had if the row is there and nobody has it. -/
def canLock (s : Clients) (id : AccountId) : Bool :=
  (s.store.tables.find? id).isSome && s.isFree id

def become (s : Clients) (k : UnitId) (activity : Activity) (store : Store) : Clients where
  store
  activities := s.activities.set k activity

/-- The tables after a write of a row, if it is based on the stored version. -/
def overwrite (t : Tables) (now : Timestamp) (row : Account) : Tables :=
  match t.checkVersion row.id row.version with
  | .ok () => t.replace (Tables.stamp now row)
  | .error _ => t

/-- One move of a client. There is none while the client waits for the lock of a row. -/
def step (s : Clients) (k : UnitId) (m : Move) : Option Clients :=
  match s.activities[k]?, m with
  | some .idle, .call c now =>
      if c.isGradual then none
      else (s.store.perform k now c).map fun done => s.become k .idle done.1
  | some .idle, .lock id =>
      if !(s.store.unit k).finished && !(s.store.unit k).holds id && s.canLock id then
        some (s.become k (.locking id) s.store)
      else none
  | some (.locking id), .read =>
      (s.store.tables.find? id).map fun row =>
        s.become k .idle (s.store.setUnit k ((s.store.unit k).hold row))
  | some .idle, .save row =>
      if s.canLock row.id then some (s.become k (.saving row) s.store) else none
  | some (.saving row), .write now =>
      some (s.become k (.saved row.id)
        { s.store with tables := overwrite s.store.tables now row })
  | some (.saved _), .unlock => some (s.become k .idle s.store)
  | some .idle, .commit now => some (s.become k .committed (s.store.write k now).1)
  | some .committed, .release => some (s.become k .idle (s.store.release k))
  | some .idle, .drop => some (s.become k .idle (s.store.drop k))
  | _, _ => none

/-- Makes moves of any clients, in the given order. -/
def run : Clients → List (UnitId × Move) → Option Clients
  | s, [] => some s
  | s, (k, m) :: rest => (s.step k m).bind fun s' => s'.run rest

variable {s s' : Clients} {k : UnitId} {now : Timestamp} {id : AccountId} {row : Account}

theorem run_cons {m : Move} {rest : List (UnitId × Move)} (h : s.run ((k, m) :: rest) = some s') :
    ∃ s₁, s.step k m = some s₁ ∧ s₁.run rest = some s' :=
  Option.bind_eq_some_iff.mp h

theorem become_self (hk : s.activities[k]? = some .idle) (store : Store) :
    s.become k .idle store = { s with store } := by
  obtain ⟨hlt, hidle⟩ := List.getElem?_eq_some_iff.mp hk
  rw [become, ← hidle, List.set_getElem_self]

theorem become_become (s : Clients) (k : UnitId) (a b : Activity) (store store' : Store) :
    (s.become k a store).become k b store' = s.become k b store' := by
  rw [become, become, become, List.set_set]

theorem activity_become (hk : k < s.activities.length) (a : Activity) (store : Store) :
    (s.become k a store).activities[k]? = some a :=
  List.getElem?_set_self hk

theorem run_lock (hk : s.activities[k]? = some .idle) (hopen : (s.store.unit k).finished = false)
    (hheld : (s.store.unit k).holds id = false) (hrow : s.store.tables.find? id = some row)
    (hfree : s.isFree id = true) :
    s.run [(k, .lock id), (k, .read)] =
      some { s with store := s.store.setUnit k ((s.store.unit k).hold row) } := by
  have hlt : k < s.activities.length := (List.getElem?_eq_some_iff.mp hk).1
  have hlock : s.step k (.lock id) = some (s.become k (.locking id) s.store) := by
    simp [step, hk, hopen, hheld, canLock, hrow, hfree]
  have hread : (s.become k (.locking id) s.store).step k .read =
      some (s.become k .idle (s.store.setUnit k ((s.store.unit k).hold row))) := by
    simp only [step, activity_become hlt, become_become]
    rw [show (s.become k (.locking id) s.store).store = s.store from rfl, hrow]
    rfl
  simp only [run, hlock, hread, Option.bind_some, become_self hk]

theorem run_saveAccount (hk : s.activities[k]? = some .idle)
    (hfree : s.canLock row.id = true)
    (hversion : s.store.tables.checkVersion row.id row.version = .ok ()) :
    s.run [(k, .save row), (k, .write now), (k, .unlock)] =
      some { s with
        store := { s.store with tables := s.store.tables.replace (Tables.stamp now row) } } := by
  have hlt : k < s.activities.length := (List.getElem?_eq_some_iff.mp hk).1
  have hsave : s.step k (.save row) = some (s.become k (.saving row) s.store) := by
    simp [step, hk, hfree]
  have hwrite : (s.become k (.saving row) s.store).step k (.write now) =
      some (s.become k (.saved row.id)
        { s.store with tables := s.store.tables.replace (Tables.stamp now row) }) := by
    simp only [step, activity_become hlt, become_become]
    rw [show (s.become k (.saving row) s.store).store = s.store from rfl, overwrite, hversion]
  have hunlock : ∀ store, (s.become k (.saved row.id) store).step k .unlock =
      some (s.become k .idle store) := by
    intro store
    simp only [step, activity_become hlt, become_become]
    rfl
  simp only [run, hsave, hwrite, hunlock, Option.bind_some, become_self hk]

theorem run_commit (now : Timestamp) (hk : s.activities[k]? = some .idle) :
    s.run [(k, .commit now), (k, .release)] =
      some { s with store := (s.store.write k now).1.release k } := by
  have hlt : k < s.activities.length := (List.getElem?_eq_some_iff.mp hk).1
  have hcommit : s.step k (.commit now) =
      some (s.become k .committed (s.store.write k now).1) := by
    simp [step, hk]
  have hrelease : ∀ store, (s.become k .committed store).step k .release =
      some (s.become k .idle (store.release k)) := by
    intro store
    simp only [step, activity_become hlt, become_become]
    rfl
  simp only [run, hcommit, hrelease, Option.bind_some, become_self hk]

theorem run_of_perform {c : StoreCall} {answer : c.Answer} {store : Store}
    (hk : s.activities[k]? = some .idle)
    (hquiet : ∀ id, (c = .lock id ∨ ∃ row, c = .saveAccount row ∧ row.id = id) →
      s.activities.all (fun activity => !activity.guards id) = true)
    (hperform : s.store.perform k now c = some (store, answer)) :
    ∃ moves, s.run moves = some { s with store } := by
  cases hgradual : c.isGradual with
  | false =>
      refine ⟨[(k, .call c now)], ?_⟩
      have hcall : s.step k (.call c now) = some (s.become k .idle store) := by
        simp [step, hk, hgradual, hperform]
      simp only [run, hcall, Option.bind_some, become_self hk]
  | true =>
      cases c with
      | lock id =>
          simp only [Store.perform] at hperform
          split at hperform
          · cases hperform
            exact ⟨[], rfl⟩
          · rename_i hopen
            split at hperform
            · cases hperform
              exact ⟨[], rfl⟩
            · rename_i hheld
              split at hperform
              · cases hperform
                exact ⟨[], rfl⟩
              · rename_i row hrow
                split at hperform
                · cases hperform
                · rename_i hunlocked
                  cases hperform
                  have hfree : s.isFree id = true := by
                    simp [isFree, hunlocked, hquiet id (.inl rfl)]
                  exact ⟨_, run_lock hk (by simpa using hopen) (by simpa using hheld)
                    (Tables.find?_of_account hrow) hfree⟩
      | saveAccount row =>
          simp only [Store.perform] at hperform
          split at hperform
          · cases hperform
            exact ⟨[], rfl⟩
          · rename_i old hrow
            split at hperform
            · cases hperform
            · rename_i hunlocked
              split at hperform
              · cases hperform
                exact ⟨[], rfl⟩
              · rename_i hversion
                cases hperform
                have hfree : s.canLock row.id = true := by
                  simp [canLock, isFree, Tables.find?_of_account hrow, hunlocked,
                    hquiet row.id (.inr ⟨row, rfl, rfl⟩)]
                exact ⟨_, run_saveAccount hk hfree hversion⟩
      | commit =>
          rw [Store.perform_commit] at hperform
          cases hperform
          exact ⟨_, run_commit now hk⟩
      | _ => cases hgradual

end Clients

end Ledger
