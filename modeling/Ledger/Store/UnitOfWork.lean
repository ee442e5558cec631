import Ledger.Store.Tables

namespace Ledger

/-- A row that a unit of work has locked, with its version at that time and the copy that was last
saved, if any. -/
structure LockedRow where
  id : AccountId
  version : Nat
  saved : Option Account
deriving DecidableEq

/-- A batch of writes that are applied together or not at all. The locked rows are ascending by
id. -/
structure UnitOfWork where
  rows : List LockedRow := []
  entries : List NewTransaction := []
  finished : Bool := false
deriving DecidableEq

/-- What a commit wrote: the saved rows ascending by id, and the entries in their order. -/
structure Committed where
  accounts : List Account := []
  transactions : List Transaction := []
deriving DecidableEq

namespace UnitOfWork

/-- A unit that has been committed or rolled back; it holds nothing. -/
def closed : UnitOfWork where
  finished := true

def row? (u : UnitOfWork) (id : AccountId) : Option LockedRow :=
  u.rows.find? (·.id = id)

def holds (u : UnitOfWork) (id : AccountId) : Bool :=
  u.rows.any (·.id = id)

/-- Puts a locked row into its place among the others. -/
def insertRow (row : LockedRow) : List LockedRow → List LockedRow
  | [] => [row]
  | other :: rest =>
      if row.id < other.id then row :: other :: rest else other :: insertRow row rest

/-- Takes the lock on a row that is free. -/
def hold (u : UnitOfWork) (row : Account) : UnitOfWork :=
  { u with rows := insertRow ⟨row.id, row.version, none⟩ u.rows }

/-- What a unit that holds a row sees of it: the copy it saved last, or else the stored row. -/
def view (u : UnitOfWork) (t : Tables) (id : AccountId) : Except StoreError Account :=
  match (u.row? id).bind (·.saved) with
  | some copy => .ok copy
  | none => t.account id

/-- Stages a row that is locked. -/
def save (u : UnitOfWork) (copy : Account) : UnitOfWork × Except StoreError Unit :=
  if u.finished then (u, .error .closed)
  else if u.holds copy.id then
    ({ u with
        rows := u.rows.map fun row =>
          if row.id = copy.id then { row with saved := some copy } else row },
      .ok ())
  else (u, .error (.notLocked copy.id))

/-- Stages a log entry. -/
def append (u : UnitOfWork) (new : NewTransaction) : UnitOfWork × Except StoreError Unit :=
  if u.finished then (u, .error .closed)
  else ({ u with entries := u.entries ++ [new] }, .ok ())

/-- The saved copies, each with the version its row had when it was locked. -/
def staged (u : UnitOfWork) : List Account :=
  u.rows.filterMap fun row => row.saved.map fun copy => { copy with version := row.version }

/-- Refuses the commit if a saved row was written since it was locked. -/
def verify (u : UnitOfWork) (t : Tables) : Except StoreError Unit :=
  u.rows.forM fun row => if row.saved.isSome then t.checkVersion row.id row.version else .ok ()

/-- The tables after all staged writes. They all bear one clock reading, where a store may look at
the clock for each of them. -/
def apply (u : UnitOfWork) (now : Timestamp) (t : Tables) : Tables :=
  let written := u.staged.foldl (fun t copy => t.replace (Tables.stamp now copy)) t
  u.entries.foldl (fun t new => t.enter now new) written

/-- The rows and entries that `apply` writes. -/
def written (u : UnitOfWork) (now : Timestamp) (t : Tables) : Committed where
  accounts := u.staged.map (Tables.stamp now)
  transactions := (u.apply now t).log.drop t.log.length

/-- Applies all staged writes, or none; the unit is closed either way. -/
def commit (u : UnitOfWork) (now : Timestamp) (t : Tables) :
    UnitOfWork × Tables × Except StoreError Committed :=
  if u.finished then (u, t, .error .closed)
  else
    match u.verify t with
    | .error e => (closed, t, .error e)
    | .ok () => (closed, u.apply now t, .ok (u.written now t))

/-- Discards all staged writes and closes the unit. -/
def rollback (u : UnitOfWork) : UnitOfWork × Except StoreError Unit :=
  if u.finished then (u, .error .closed) else (closed, .ok ())

end UnitOfWork

end Ledger
