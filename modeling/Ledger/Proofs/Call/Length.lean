import Ledger.Proofs.Call.Orderly

namespace Ledger.Work

variable {α β : Type} {n m : Nat} {p : Work α}

/-- Work that comes to its end within so many steps, however the store answers. A commit counts
twice, since the rows are freed in a step of their own. -/
inductive Within : Nat → Work α → Prop
  | done {n : Nat} {result : Except LedgerError α} : Within n (.done result)
  | commit {n : Nat} {next : Except StoreError Committed → Work α}
      (rest : ∀ a, Within n (next a)) : Within (n + 2) (.call .commit next)
  | other {n : Nat} {c : StoreCall} {next : c.Answer → Work α} (other : c ≠ .commit)
      (rest : ∀ a, Within n (next a)) : Within (n + 1) (.call c next)

theorem Within.mono (h : Within n p) (hle : n ≤ m) : Within m p := by
  induction h generalizing m with
  | done => exact .done
  | commit _ ih =>
      obtain ⟨m, rfl⟩ := Nat.exists_eq_add_of_le' hle
      rw [Nat.add_comm, Nat.add_right_comm]
      exact .commit fun a => ih a (Nat.le_add_right _ m)
  | other hother _ ih =>
      obtain ⟨m, rfl⟩ := Nat.exists_eq_add_of_le' hle
      rw [Nat.add_comm, Nat.add_right_comm]
      exact .other hother fun a => ih a (Nat.le_add_right _ m)

theorem Within.bind {f : Except LedgerError α → Work β} (h : Within n p)
    (rest : ∀ result, Within m (f result)) : Within (n + m) (p.bind f) := by
  induction h with
  | done => exact (rest _).mono (Nat.le_add_left m _)
  | commit _ ih =>
      rw [Nat.add_right_comm]
      exact .commit ih
  | other hother _ ih =>
      rw [Nat.add_right_comm]
      exact .other hother ih

theorem Within.refuse (e : LedgerError) : Within n (refuse e : Work α) :=
  .done

theorem Within.ask {c : StoreCall} {next : c.Value → Work α} (other : c ≠ .commit)
    (rest : ∀ value, Within n (next value)) : Within (n + 1) (ask c next) := by
  refine .other other ?_
  rintro (e | value)
  · exact .refuse _
  · exact rest value

theorem Within.abort {next : Work α} (rest : Within n next) : Within (n + 1) (abort next) :=
  .other (by simp) fun _ => rest

theorem Within.inUnit {stage : Work β} {finish : β → Work α} (hstage : Within n stage)
    (hfinish : ∀ staged, Within (m + 1) (finish staged)) :
    Within (n + (m + 1) + 1) (inUnit stage finish) := by
  refine .ask (by simp) fun _ => hstage.bind ?_
  rintro (e | staged)
  · exact Within.abort .done
  · exact hfinish staged

theorem Within.commitEntry {next : Committed → Transaction → Work α}
    (rest : ∀ committed entry, Within n (next committed entry)) :
    Within (n + 2) (commitEntry next) := by
  refine .commit ?_
  rintro (e | committed)
  · exact .refuse _
  · dsimp only
    split
    · exact rest committed _
    · exact .refuse _

theorem Within.lockPair {source destination : AccountId} {next : Account → Account → Work α}
    (rest : ∀ debited credited, Within n (next debited credited)) :
    Within (n + 2) (lockPair source destination next) := by
  unfold Work.lockPair
  split
  · exact .ask (by simp) fun debited => .ask (by simp) fun credited => rest debited credited
  · exact .ask (by simp) fun credited => .ask (by simp) fun debited => rest debited credited

theorem within_deposit (user : UserId) (account : AccountId) (amount : Decimal) :
    Within 7 (deposit user account amount) := by
  refine .ask (by simp) fun found => ?_
  split
  · exact .refuse _
  · refine Within.inUnit (n := 3) (m := 1) (.ask (by simp) fun row => ?_) ?_
    · split
      · exact .refuse _
      · split
        · exact .refuse _
        · split
          · exact .refuse _
          · exact .ask (by simp) fun _ => .ask (by simp) fun _ => .done
    · intro staged
      refine .commitEntry fun committed entry => ?_
      split
      · exact .done
      · exact .done

theorem within_close (user : UserId) (account : AccountId) : Within 6 (close user account) := by
  refine .ask (by simp) fun _ => ?_
  refine Within.inUnit (n := 2) (m := 1) (.ask (by simp) fun row => ?_) ?_
  · split
    · exact .refuse _
    · split
      · exact .done
      · split
        · exact .refuse _
        · exact .ask (by simp) fun _ => .done
  · rintro (_ | _)
    · exact Within.abort .done
    · refine .commit ?_
      rintro (e | committed)
      · exact .refuse _
      · exact .done

theorem within_stageTransfer (r : TransferRequest) (amount : Decimal) :
    Within 5 (stageTransfer r amount) := by
  refine .lockPair fun source destination => ?_
  split
  · exact .refuse _
  · split
    · exact .refuse _
    · split
      · exact .refuse _
      · split
        · exact .refuse _
        · split
          · exact .refuse _
          · exact .ask (by simp) fun _ => .ask (by simp) fun _ => .ask (by simp) fun _ => .done

theorem within_exchange (r : TransferRequest) (source destination : Account) :
    Within 8 (exchange r source destination) := by
  unfold exchange
  split
  · exact .refuse _
  · split
    · exact .refuse _
    · refine Within.inUnit (n := 5) (m := 1) (within_stageTransfer r _) fun _ => ?_
      exact .commitEntry fun _ _ => .done

theorem within_transfer (r : TransferRequest) : Within 10 (transfer r) := by
  rw [transfer_eq]
  refine .ask (by simp) fun source => ?_
  split
  · exact .ask (by simp) fun destination => within_exchange r source destination
  · exact .ask (by simp) fun destination => within_exchange r source destination

theorem Within.reply {work : Work α} (h : Within n work) (f : α → Reply) :
    Within n (Request.work.reply work f) :=
  Within.bind (m := 0) h fun _ => .done

theorem within_program (r : Request) (config : Config) : Within 10 (r.program config) := by
  cases r with
  | openAccount user product currency =>
      rw [Request.program_openAccount]
      split
      · exact Within.reply (.ask (by simp) fun _ => .done) _
      · exact .refuse _
  | deposit user id amount =>
      rw [Request.program_deposit]
      split
      · exact .refuse _
      · exact ((within_deposit user id amount).reply _).mono (by omega)
  | transfer r =>
      rw [Request.program_transfer]
      split
      · exact .refuse _
      · split
        · exact .refuse _
        · exact (within_transfer r).reply _
  | close user id => exact ((within_close user id).reply _).mono (by omega)
  | accounts user => exact .ask (by simp) fun _ => .done
  | account user id => exact .ask (by simp) fun _ => .done
  | transactions filter => exact .ask (by simp) fun _ => .done
  | transaction id => exact .ask (by simp) fun _ => .done

end Ledger.Work
