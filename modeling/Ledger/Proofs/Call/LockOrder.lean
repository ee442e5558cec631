import Ledger.Proofs.Call.Reaches

namespace Ledger

namespace UnitOfWork

variable {u : UnitOfWork} {t : Tables} {c : StoreCall} {now : Timestamp} {id : AccountId}

theorem holds_of_perform (hc : c.isTentative = true) (hlock : ∀ id, c ≠ .lock id)
    (h : (u.perform now t c).1.holds id = true) : u.holds id = true := by
  cases c with
  | lock id' => exact absurd rfl (hlock id')
  | begin => cases h
  | save row => exact (holds_save row).symm.trans h
  | append new => exact (holds_append new).symm.trans h
  | ownedAccount | account => exact h
  | _ => cases hc

theorem perform_lock_cases (u : UnitOfWork) (now : Timestamp) (t : Tables) (id : AccountId) :
    (u.perform now t (.lock id)).1 = u ∨
      ∃ row, t.find? id = some row ∧ u.perform now t (.lock id) = (u.hold row, t, .ok row) := by
  simp only [perform]
  split
  · exact .inl rfl
  · split
    · exact .inl rfl
    · cases haccount : t.account id with
      | error e => exact .inl rfl
      | ok row => exact .inr ⟨row, Tables.find?_of_account haccount, rfl⟩

end UnitOfWork

namespace Work

variable {α β : Type} {held : List AccountId}

/-- Work that locks rows in ascending order: when it asks for a row, all rows that it has asked for
in its unit before have smaller ids. -/
inductive Ascending : List AccountId → Work α → Prop
  | done {held : List AccountId} {result : Except LedgerError α} : Ascending held (.done result)
  | begin {next : Except StoreError Unit → Work α} (rest : ∀ a, Ascending [] (next a)) :
      Ascending [] (.call .begin next)
  | lock {held : List AccountId} {id : AccountId} {next : Except StoreError Account → Work α}
      (above : ∀ other ∈ held, other < id)
      (refused : ∀ e, Ascending held (next (.error e)))
      (rest : ∀ row, Ascending (id :: held) (next (.ok row))) :
      Ascending held (.call (.lock id) next)
  | other {held : List AccountId} {c : StoreCall} {next : c.Answer → Work α}
      (begins : c ≠ .begin) (locks : ∀ id, c ≠ .lock id)
      (rest : ∀ a, Ascending held (next a)) : Ascending held (.call c next)

theorem Ascending.refuse (e : LedgerError) : Ascending held (refuse e : Work α) :=
  .done

theorem Ascending.bind {p : Work β} {k : Except LedgerError β → Work α} (hp : Ascending held p)
    (hk : ∀ held result, Ascending held (k result)) : Ascending held (p.bind k) := by
  induction hp with
  | done => exact hk _ _
  | begin _ ih => exact .begin ih
  | lock above _ _ ih ih' => exact .lock above ih ih'
  | other begins locks _ ih => exact .other begins locks ih

theorem Ascending.ask {c : StoreCall} {next : c.Value → Work α} (begins : c ≠ .begin)
    (locks : ∀ id, c ≠ .lock id) (rest : ∀ value, Ascending held (next value)) :
    Ascending held (ask c next) := by
  refine .other begins locks ?_
  rintro (e | value)
  · exact .refuse _
  · exact rest value

theorem Ascending.ask_lock {id : AccountId} {next : Account → Work α}
    (above : ∀ other ∈ held, other < id) (rest : ∀ row, Ascending (id :: held) (next row)) :
    Ascending held (Work.ask (.lock id) next) :=
  .lock above (fun _ => .refuse _) rest

theorem Ascending.abort {next : Work α} (rest : Ascending held next) :
    Ascending held (abort next) :=
  .other (by simp) (by simp) fun _ => rest

theorem Ascending.inUnit {stage : Work β} {finish : β → Work α} (hstage : Ascending [] stage)
    (hfinish : ∀ held staged, Ascending held (finish staged)) :
    Ascending [] (inUnit stage finish) := by
  refine .begin ?_
  rintro (e | _)
  · exact .refuse _
  · refine hstage.bind ?_
    rintro held (e | staged)
    · exact (Ascending.refuse e).abort
    · exact hfinish held staged

theorem Ascending.commitEntry {next : Committed → Transaction → Work α}
    (rest : ∀ committed entry, Ascending held (next committed entry)) :
    Ascending held (commitEntry next) := by
  refine .ask (by simp) (by simp) ?_
  intro committed
  split
  · exact rest committed _
  · exact .refuse _

theorem ascending_openAccount (new : NewAccount) : Ascending [] (openAccount new) :=
  .ask (by simp) (by simp) fun _ => .done

theorem ascending_deposit (user : UserId) (account : AccountId) (amount : Decimal) :
    Ascending [] (deposit user account amount) := by
  refine .ask (by simp) (by simp) ?_
  intro found
  split
  · exact .refuse _
  · refine .inUnit (.ask_lock (by simp) ?_) ?_
    · intro row
      split
      · exact .refuse _
      · split
        · exact .refuse _
        · split
          · exact .refuse _
          · refine .ask (by simp) (by simp) fun _ => ?_
            exact .ask (by simp) (by simp) fun _ => .done
    · intro held staged
      refine .commitEntry ?_
      intro committed entry
      split
      · exact .done
      · exact .done

theorem ascending_close (user : UserId) (account : AccountId) :
    Ascending [] (close user account) := by
  refine .ask (by simp) (by simp) fun _ => ?_
  refine .inUnit (.ask_lock (by simp) ?_) ?_
  · intro row
    split
    · exact .refuse _
    · split
      · exact .done
      · split
        · exact .refuse _
        · exact .ask (by simp) (by simp) fun _ => .done
  · rintro held (_ | _)
    · exact Ascending.abort .done
    · exact .ask (by simp) (by simp) fun _ => .done

theorem Ascending.lockPair {source destination : AccountId} {next : Account → Account → Work α}
    (hdistinct : source ≠ destination)
    (rest : ∀ held debited credited, Ascending held (next debited credited)) :
    Ascending [] (lockPair source destination next) := by
  unfold Work.lockPair
  split
  · rename_i hlt
    refine .ask_lock (by simp) fun debited => .ask_lock ?_ fun credited => rest _ debited credited
    simpa using hlt
  · rename_i hge
    refine .ask_lock (by simp) fun credited => .ask_lock ?_ fun debited => rest _ debited credited
    simpa using Nat.lt_of_le_of_ne (Nat.le_of_not_lt hge) hdistinct.symm

theorem ascending_stageTransfer (r : TransferRequest) (amount : Decimal)
    (hdistinct : r.source ≠ r.destination) : Ascending [] (stageTransfer r amount) := by
  refine .lockPair hdistinct ?_
  intro held source destination
  split
  · exact .refuse _
  · split
    · exact .refuse _
    · split
      · exact .refuse _
      · split
        · exact .refuse _
        · split
          · exact .refuse _
          · refine .ask (by simp) (by simp) fun _ => .ask (by simp) (by simp) fun _ => ?_
            exact .ask (by simp) (by simp) fun _ => .done

theorem ascending_exchange (r : TransferRequest) (source destination : Account)
    (hdistinct : r.source ≠ r.destination) : Ascending [] (exchange r source destination) := by
  unfold exchange
  split
  · exact .refuse _
  · split
    · exact .refuse _
    · refine .inUnit (ascending_stageTransfer r _ hdistinct) ?_
      exact fun _ _ => .commitEntry fun _ _ => .done

theorem ascending_transfer (r : TransferRequest) (hdistinct : r.source ≠ r.destination) :
    Ascending [] (transfer r) := by
  rw [transfer_eq]
  refine .ask (by simp) (by simp) fun source => ?_
  split
  · exact .ask (by simp) (by simp) fun destination => ascending_exchange r source _ hdistinct
  · exact .ask (by simp) (by simp) fun destination => ascending_exchange r source _ hdistinct

theorem Ascending.reply {work : Work α} (h : Ascending held work) (f : α → Reply) :
    Ascending held (Request.work.reply work f) :=
  h.bind fun _ _ => .done

theorem ascending_program (r : Request) (config : Config) : Ascending [] (r.program config) := by
  cases r with
  | openAccount user product currency =>
      rw [Request.program_openAccount]
      split
      · exact (ascending_openAccount _).reply _
      · exact .refuse _
  | deposit user id amount =>
      rw [Request.program_deposit]
      split
      · exact .refuse _
      · exact (ascending_deposit user id amount).reply _
  | transfer r =>
      rw [Request.program_transfer]
      split
      · exact .refuse _
      · split
        · exact .refuse _
        · rename_i hdistinct
          exact (ascending_transfer r hdistinct).reply _
  | close user id => exact (ascending_close user id).reply _
  | accounts user => exact .ask (by simp) (by simp) fun _ => .done
  | account user id => exact .ask (by simp) (by simp) fun _ => .done
  | transactions filter => exact .ask (by simp) (by simp) fun _ => .done
  | transaction id => exact .ask (by simp) (by simp) fun _ => .done

variable {t : Tables} {start p : Work α} {u : UnitOfWork}

/-- On its way the work holds no rows but those that it has asked for, so that the next one it asks
for has a larger id than any of them. -/
theorem Reaches.ascending (hstart : Ascending [] start) (h : Reaches t start p u) :
    ∃ held, Ascending held p ∧ ∀ id, u.holds id = true → id ∈ held := by
  induction h with
  | start => exact ⟨[], hstart, fun _ h => nomatch h⟩
  | @call c next u now _ tentative ih =>
      obtain ⟨held, hascending, hheld⟩ := ih
      cases hascending with
      | begin rest => exact ⟨[], rest _, fun _ h => nomatch h⟩
      | @lock _ id _ _ refused rest =>
          rcases u.perform_lock_cases now t id with hsame | ⟨row, hrow, hperform⟩
          · rw [hsame]
            cases (u.perform now t (.lock id)).2.2 with
            | error e => exact ⟨held, refused e, hheld⟩
            | ok row => exact ⟨id :: held, rest row, fun other h => .tail _ (hheld other h)⟩
          · rw [hperform]
            refine ⟨id :: held, rest row, ?_⟩
            intro other hother
            rcases (UnitOfWork.holds_hold row).mp hother with rfl | hbefore
            · rw [Tables.id_of_find? hrow]
              exact .head _
            · exact .tail _ (hheld other hbefore)
      | other _ locks rest =>
          exact ⟨held, rest _, fun id h => hheld id (UnitOfWork.holds_of_perform tentative locks h)⟩

theorem Reaches.lt_of_holds {id other : AccountId} {next : Except StoreError Account → Work α}
    (hstart : Ascending [] start) (h : Reaches t start (.call (.lock id) next) u)
    (hother : u.holds other = true) : other < id := by
  obtain ⟨held, hascending, hheld⟩ := h.ascending hstart
  cases hascending with
  | lock above _ _ => exact above other (hheld other hother)
  | other _ locks _ => exact absurd rfl (locks id)

end Work

end Ledger
