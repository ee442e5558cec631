import Ledger.Program
import Ledger.Store.UnitOfWork

namespace Ledger

abbrev UnitId := Nat

/-- The tables with the units of work that have been begun on them. A row is locked while a unit
holds it. -/
structure Store where
  tables : Tables := {}
  units : List (UnitId × UnitOfWork) := []
deriving DecidableEq

/-- What can be asked of a store. The calls from `begin` on are made on one unit of work. -/
inductive StoreCall where
  | ownedAccount (owner : UserId) (id : AccountId)
  | account (id : AccountId)
  | accountsOf (owner : UserId)
  | insertAccount (new : NewAccount)
  | saveAccount (row : Account)
  | insertTransaction (new : NewTransaction)
  | query (filter : Filter)
  | transaction (id : TransactionId)
  | begin
  | lock (id : AccountId)
  | save (row : Account)
  | append (new : NewTransaction)
  | commit
  | rollback

/-- What a successful call returns. -/
abbrev StoreCall.Value : StoreCall → Type
  | ownedAccount .. | account _ | insertAccount _ | lock _ => Account
  | accountsOf _ => List Account
  | insertTransaction _ | transaction _ => Transaction
  | query _ => List Transaction
  | saveAccount _ | begin | save _ | append _ | rollback => Unit
  | commit => Committed

abbrev StoreCall.Answer (c : StoreCall) : Type :=
  Except StoreError c.Value

namespace Store

/-- The state of a unit of work; one that was never begun, or was dropped, counts as closed. -/
def unit (s : Store) (u : UnitId) : UnitOfWork :=
  (s.units.lookup u).getD .closed

def setUnit (s : Store) (u : UnitId) (work : UnitOfWork) : Store :=
  { s with units := (u, work) :: s.units.filter (·.1 ≠ u) }

/-- Forgets a unit of work: its staged writes are discarded and its rows are free. -/
def drop (s : Store) (u : UnitId) : Store :=
  { s with units := s.units.filter (·.1 ≠ u) }

def isLocked (s : Store) (id : AccountId) : Bool :=
  s.units.any fun (_, work) => work.holds id

/-- Makes one call, on the unit `u` where it needs one, at the clock reading `now`. There is no
outcome yet while the call has to wait for a row that is locked. -/
def perform (s : Store) (u : UnitId) (now : Timestamp) : (c : StoreCall) → Option (Store × c.Answer)
  | .ownedAccount owner id => some (s, s.tables.ownedAccount owner id)
  | .account id => some (s, s.tables.account id)
  | .accountsOf owner => some (s, .ok (s.tables.accountsOf owner))
  | .insertAccount new =>
      some ({ s with tables := s.tables.insert now new }, .ok (s.tables.newRow now new))
  | .saveAccount row =>
      match s.tables.account row.id with
      | .error e => some (s, .error e)
      | .ok _ =>
          if s.isLocked row.id then none
          else
            match s.tables.checkVersion row.id row.version with
            | .error e => some (s, .error e)
            | .ok () =>
                some ({ s with tables := s.tables.replace (Tables.stamp now row) }, .ok ())
  | .insertTransaction new =>
      some ({ s with tables := s.tables.enter now new }, .ok (s.tables.newEntry now new))
  | .query filter => some (s, .ok (filter.page? s.tables.log))
  | .transaction id => some (s, s.tables.transaction id)
  | .begin => some (s.setUnit u {}, .ok ())
  | .lock id =>
      let work := s.unit u
      if work.finished then some (s, .error .closed)
      else if work.holds id then some (s, work.view s.tables id)
      else
        match s.tables.account id with
        | .error e => some (s, .error e)
        | .ok row => if s.isLocked id then none else some (s.setUnit u (work.hold row), .ok row)
  | .save row =>
      let (work, answer) := (s.unit u).save row
      some (s.setUnit u work, answer)
  | .append new =>
      let (work, answer) := (s.unit u).append new
      some (s.setUnit u work, answer)
  | .commit =>
      let (work, tables, answer) := (s.unit u).commit now s.tables
      some ({ s.setUnit u work with tables }, answer)
  | .rollback =>
      let (work, answer) := (s.unit u).rollback
      some (s.setUnit u work, answer)

/-- The row that a call cannot do without and somebody else holds. -/
def waitsFor (s : Store) (u : UnitId) : StoreCall → Option AccountId
  | .saveAccount row => if s.isLocked row.id then some row.id else none
  | .lock id => if !(s.unit u).holds id && s.isLocked id then some id else none
  | _ => none

end Store

/-- A course of store calls. -/
abbrev Procedure (α : Type) : Type :=
  Program StoreCall StoreCall.Answer α

/-- Runs a procedure to its end with nobody else at the store; `none` if it waits for a row. -/
def Procedure.runAlone {α : Type} (u : UnitId) (now : Timestamp) :
    Procedure α → Store → Option (Store × α)
  | .done a, s => some (s, a)
  | .call c next, s =>
      match s.perform u now c with
      | some (s, answer) => runAlone u now (next answer) s
      | none => none

end Ledger
