import Ledger.Proofs.Call.Alone

namespace Ledger

/-- The log entry of a deposit. -/
def NewTransaction.ofDeposit (user : UserId) (account : AccountId) (amount : Decimal) :
    NewTransaction :=
  ⟨user, none, account, amount, Work.depositDescription, .deposit⟩

/-- The log entry of a transfer that moves the given amount. -/
def TransferRequest.entry (r : TransferRequest) (amount : Decimal) : NewTransaction where
  user := r.user
  source := some r.source
  destination := r.destination
  amount := amount
  description := r.description
  kind := r.kind.entry

/-- The tables after a write of one row. -/
def Tables.update (t : Tables) (now : Timestamp) (row : Account) : Tables :=
  t.replace (stamp now row)

namespace Tables

variable {t : Tables} {now : Timestamp} {id : AccountId} {old : Account}

theorem find?_update_of_ne (row : Account) (h : id ≠ row.id) :
    (t.update now row).find? id = t.find? id := by
  have hne : id ≠ (stamp now row).id := h
  rw [update, find?_replace_of_ne hne]

theorem find?_update (now : Timestamp) (row : Account) (h : t.find? row.id = some old)
    (id : AccountId) :
    (t.update now row).find? id = if id = row.id then some (stamp now row) else t.find? id := by
  split
  · rename_i hid
    rw [hid]
    exact find?_replace_self h
  · rename_i hid
    exact find?_update_of_ne row hid

theorem persists_update (t : Tables) (now : Timestamp) (row : Account)
    (h : t.find? row.id = some old) (huser : row.user = old.user)
    (hcurrency : row.currency = old.currency) : t.Persists (t.update now row) := by
  have hrow : t.find? (stamp now row).id = some old := h
  exact persists_replace hrow huser hcurrency

end Tables

/-- The tables after some entries. -/
def Tables.enterAll (t : Tables) (now : Timestamp) (entries : List NewTransaction) : Tables :=
  entries.foldl (fun t new => t.enter now new) t

namespace UnitOfWork

variable {now : Timestamp} {t : Tables} {row row' : Account}

/-- A unit of work that holds some rows, none of them saved yet. -/
def holding (rows : List Account) : UnitOfWork where
  rows := rows.map fun row => ⟨row.id, row.version, none⟩

theorem perform_lock {rows : List Account} {id : AccountId} (hrow : t.find? id = some row)
    (hlast : ∀ other ∈ rows, other.id < id) :
    (holding rows).perform now t (.lock id) = (holding (rows ++ [row]), t, .ok row) := by
  have hinsert : ∀ rows : List Account, (∀ other ∈ rows, other.id < row.id) →
      insertRow ⟨row.id, row.version, none⟩
          (rows.map fun row => (⟨row.id, row.version, none⟩ : LockedRow)) =
        (rows ++ [row]).map fun row => ⟨row.id, row.version, none⟩ := by
    intro rows h
    induction rows with
    | nil => rfl
    | cons other rest ih =>
        have hother : ¬row.id < other.id := Nat.not_lt.mpr (Nat.le_of_lt (h other (by simp)))
        rw [List.map_cons, insertRow, if_neg hother, ih fun o ho => h o (by simp [ho])]
        rfl
  have hid := Tables.id_of_find? hrow
  have hfree : (holding rows).holds id = false := by
    cases hholds : (holding rows).holds id with
    | false => rfl
    | true =>
        obtain ⟨locked, hmem, hlocked⟩ := holds_iff.mp hholds
        obtain ⟨other, hother, rfl⟩ := List.mem_map.mp hmem
        exact absurd hlocked (Nat.ne_of_lt (hlast other hother))
  have hopen : (holding rows).finished = false := rfl
  simp only [perform, hopen, hfree, Bool.false_eq_true, if_false, Tables.account_of_find? hrow]
  simp only [hold, holding, hinsert rows (hid ▸ hlast)]

theorem commit_single (copy : Account) (entries : List NewTransaction)
    (hrow : t.find? row.id = some row) (hversion : copy.version = row.version) :
    (⟨[⟨row.id, row.version, some copy⟩], entries, false⟩ : UnitOfWork).commit now t =
      (closed, (t.update now copy).enterAll now entries,
        .ok ⟨[Tables.stamp now copy],
          ((t.update now copy).enterAll now entries).log.drop t.log.length⟩) := by
  have hcopy : { copy with version := row.version } = copy := by rw [← hversion]
  rw [commit_of_fresh rfl (by simpa using ⟨row, hrow, rfl⟩)]
  simp only [apply, written, staged, List.filterMap_cons, List.filterMap_nil, Option.map_some,
    hcopy, List.foldl_cons, List.foldl_nil, List.map_cons, List.map_nil]
  rfl

theorem commit_pair (copy copy' : Account) (entries : List NewTransaction)
    (hrow : t.find? row.id = some row) (hrow' : t.find? row'.id = some row')
    (hversion : copy.version = row.version) (hversion' : copy'.version = row'.version) :
    (⟨[⟨row.id, row.version, some copy⟩, ⟨row'.id, row'.version, some copy'⟩], entries, false⟩ :
        UnitOfWork).commit now t =
      (closed, ((t.update now copy).update now copy').enterAll now entries,
        .ok ⟨[Tables.stamp now copy, Tables.stamp now copy'],
          (((t.update now copy).update now copy').enterAll now entries).log.drop
            t.log.length⟩) := by
  have hcopy : { copy with version := row.version } = copy := by rw [← hversion]
  have hcopy' : { copy' with version := row'.version } = copy' := by rw [← hversion']
  rw [commit_of_fresh rfl (by simpa using ⟨⟨row, hrow, rfl⟩, ⟨row', hrow', rfl⟩⟩)]
  simp only [apply, written, staged, List.filterMap_cons, List.filterMap_nil, Option.map_some,
    hcopy, hcopy', List.foldl_cons, List.foldl_nil, List.map_cons, List.map_nil]
  rfl

end UnitOfWork

namespace Work

variable {α β : Type} {now : Timestamp} {t t' : Tables} {u u' : UnitOfWork} {c : StoreCall}

theorem exec_ask_ok {value : c.Value} {next : c.Value → Work α}
    (h : u.perform now t c = (u', t', .ok value)) :
    (ask c next).exec now u t = (next value).exec now u' t' := by
  rw [ask, Procedure.exec_call, h]

theorem exec_ask_error {e : StoreError} {next : c.Value → Work α}
    (h : u.perform now t c = (u', t', .error e)) :
    (ask c next).exec now u t = (u', t', .error (.ofStore e)) := by
  rw [ask, Procedure.exec_call, h]
  rfl

theorem exec_inUnit_ok {stage : Work β} {finish : β → Work α} {staged : β}
    (h : stage.exec now {} t = (u', t', .ok staged)) :
    (inUnit stage finish).exec now u t = (finish staged).exec now u' t' := by
  have hbegin : u.perform now t .begin = ({}, t, .ok ()) := rfl
  rw [inUnit, exec_ask_ok hbegin, Procedure.exec_bind, h]

theorem exec_inUnit_error {stage : Work β} {finish : β → Work α} {e : LedgerError}
    (h : (stage.exec now {} t).2 = (t', .error e)) :
    ((inUnit stage finish).exec now u t).2 = (t', .error e) := by
  have hbegin : u.perform now t .begin = ({}, t, .ok ()) := rfl
  rw [inUnit, exec_ask_ok hbegin, Procedure.exec_bind, h]
  rfl

theorem exec_commitEntry {next : Committed → Transaction → Work α} {committed : Committed}
    {entry : Transaction} (h : u.commit now t = (u', t', .ok committed))
    (hentry : committed.transactions.getLast? = some entry) :
    (commitEntry next).exec now u t = (next committed entry).exec now u' t' := by
  have hcommit : u.perform now t .commit = (u', t', .ok committed) := h
  rw [commitEntry, exec_ask_ok hcommit, hentry]

theorem exec_ask_ownedAccount (now : Timestamp) (user : UserId) (id : AccountId)
    (next : Account → Work α) :
    ((¬∃ row, t.find? id = some row ∧ row.user = user) ∧
        ((ask (.ownedAccount user id) next).exec now u t).2 =
          (t, .error (.notFound .account id))) ∨
      ∃ row, t.find? id = some row ∧ row.user = user ∧
        (ask (.ownedAccount user id) next).exec now u t = (next row).exec now u t := by
  by_cases hfound : ∃ row, t.find? id = some row ∧ row.user = user
  · obtain ⟨row, hrow, howner⟩ := hfound
    have hperform : u.perform now t (.ownedAccount user id) = (u, t, .ok row) := by
      rw [UnitOfWork.perform, Tables.ownedAccount_of_find? hrow howner]
    exact .inr ⟨row, hrow, howner, exec_ask_ok hperform⟩
  · have hperform : u.perform now t (.ownedAccount user id) =
        (u, t, .error (.notFound .account id)) := by
      rw [UnitOfWork.perform, Tables.ownedAccount_of_missing hfound]
    rw [exec_ask_error hperform]
    exact .inl ⟨hfound, rfl⟩

theorem exec_lock {id : AccountId} {row : Account} (hrow : t.find? id = some row)
    (next : Account → Work α) :
    (ask (.lock id) next).exec now {} t = (next row).exec now (.holding [row]) t := by
  have hlock : (UnitOfWork.holding []).perform now t (.lock id) =
      (.holding ([] ++ [row]), t, .ok row) := UnitOfWork.perform_lock hrow (by simp)
  exact exec_ask_ok hlock

/-- What is wrong with a deposit into a row: the first of the conditions that do not hold. -/
inductive Unpayable (row : Account) (asked : Decimal) : LedgerError → Prop
  | places (unscaled : Currency.scale? asked row.currency = none) :
      Unpayable row asked
        (.invalidAmount asked s!"not representable at the {row.currency} minor unit")
  | closed {amount : Decimal} (scaled : Currency.scale? asked row.currency = some amount)
      (closed : row.status ≠ .active) : Unpayable row asked (.accountClosed row.id)
  | overflow {amount : Decimal} (scaled : Currency.scale? asked row.currency = some amount)
      (active : row.status = .active) (credit : Currency.credit? row.balance amount = none) :
      Unpayable row asked (.invalidAmount amount "balance would overflow")

section Deposit

variable {user : UserId} {id : AccountId} {row : Account} {asked amount balance : Decimal}

theorem exec_stageDeposit_ok (hrow : t.find? id = some row) (howner : row.user = user)
    (hactive : row.status = .active) (hcredit : Currency.credit? row.balance amount = some balance) :
    (stageDeposit user id amount).exec now {} t =
      (⟨[⟨row.id, row.version, some { row with balance }⟩], [.ofDeposit user id amount], false⟩,
        t, .ok { row with balance }) := by
  rw [stageDeposit, exec_lock hrow, if_neg (not_not_intro howner),
    if_neg (not_not_intro hactive), hcredit]
  simp [ask, Procedure.exec, UnitOfWork.perform, UnitOfWork.save, UnitOfWork.append,
    UnitOfWork.holding, UnitOfWork.holds, NewTransaction.ofDeposit, succeed]

theorem exec_stageDeposit (hrow : t.find? id = some row) (howner : row.user = user)
    (amount : Decimal) :
    (row.status ≠ .active ∧
        ((stageDeposit user id amount).exec now {} t).2 = (t, .error (.accountClosed id))) ∨
      (row.status = .active ∧ Currency.credit? row.balance amount = none ∧
        ((stageDeposit user id amount).exec now {} t).2 =
          (t, .error (.invalidAmount amount "balance would overflow"))) ∨
      ∃ balance, row.status = .active ∧ Currency.credit? row.balance amount = some balance := by
  rw [stageDeposit, exec_lock hrow, if_neg (not_not_intro howner)]
  by_cases hactive : row.status = .active
  · rw [if_neg (not_not_intro hactive)]
    cases hcredit : Currency.credit? row.balance amount with
    | none => exact .inr (.inl ⟨hactive, rfl, rfl⟩)
    | some balance => exact .inr (.inr ⟨balance, hactive, rfl⟩)
  · rw [if_pos hactive]
    exact .inl ⟨hactive, rfl⟩

theorem exec_deposit_ok (hrow : t.find? id = some row) (howner : row.user = user)
    (hactive : row.status = .active) (hscale : Currency.scale? asked row.currency = some amount)
    (hcredit : Currency.credit? row.balance amount = some balance) :
    ((deposit user id asked).exec now .closed t).2 =
      ((t.update now { row with balance }).enter now (.ofDeposit user id amount),
        .ok (Tables.stamp now { row with balance },
          t.newEntry now (.ofDeposit user id amount))) := by
  have hid := Tables.id_of_find? hrow
  have hself : t.find? row.id = some row := by rw [hid, hrow]
  have hfound : UnitOfWork.closed.perform now t (.ownedAccount user id) = (.closed, t, .ok row) := by
    rw [UnitOfWork.perform, Tables.ownedAccount_of_find? hrow howner]
  have hcommit : UnitOfWork.commit _ now t = _ :=
    UnitOfWork.commit_single { row with balance } [.ofDeposit user id amount] hself rfl
  have hlog : ((t.update now { row with balance }).enter now
      (.ofDeposit user id amount)).log.drop t.log.length =
        [t.newEntry now (.ofDeposit user id amount)] := by
    simp [Tables.update]
  rw [deposit, exec_ask_ok hfound, hscale]
  dsimp only
  rw [exec_inUnit_ok (exec_stageDeposit_ok hrow howner hactive hcredit),
    exec_commitEntry hcommit (congrArg List.getLast? hlog)]
  simp [hid, succeed, Tables.enterAll]

theorem exec_deposit (user : UserId) (id : AccountId) (asked : Decimal) :
    ((¬∃ row, t.find? id = some row ∧ row.user = user) ∧
        ((deposit user id asked).exec now .closed t).2 =
          (t, .error (.notFound .account id))) ∨
      ∃ row, t.find? id = some row ∧ row.user = user ∧
        ((∃ e, Unpayable row asked e ∧
            ((deposit user id asked).exec now .closed t).2 = (t, .error e)) ∨
          ∃ amount balance, row.status = .active ∧
            Currency.scale? asked row.currency = some amount ∧
            Currency.credit? row.balance amount = some balance ∧
            ((deposit user id asked).exec now .closed t).2 =
              ((t.update now { row with balance }).enter now (.ofDeposit user id amount),
                .ok (Tables.stamp now { row with balance },
                  t.newEntry now (.ofDeposit user id amount)))) := by
  rw [deposit]
  rcases exec_ask_ownedAccount now user id _ with hmissing | ⟨row, hrow, howner, hexec⟩
  · exact .inl hmissing
  · refine .inr ⟨row, hrow, howner, ?_⟩
    obtain rfl := Tables.id_of_find? hrow
    cases hscale : Currency.scale? asked row.currency with
    | none =>
        rw [hexec, hscale]
        exact .inl ⟨_, .places hscale, rfl⟩
    | some amount =>
        rcases exec_stageDeposit hrow howner amount with
          ⟨hclosed, hstage⟩ | ⟨hactive, hfull, hstage⟩ | ⟨balance, hactive, hcredit⟩
        · rw [hexec, hscale]
          exact .inl ⟨_, .closed hscale hclosed, exec_inUnit_error hstage⟩
        · rw [hexec, hscale]
          exact .inl ⟨_, .overflow hscale hactive hfull, exec_inUnit_error hstage⟩
        · exact .inr ⟨amount, balance, hactive, rfl, hcredit,
            exec_deposit_ok hrow howner hactive hscale hcredit⟩

end Deposit

theorem exec_close (user : UserId) (id : AccountId) :
    ((¬∃ row, t.find? id = some row ∧ row.user = user) ∧
        ((close user id).exec now .closed t).2 = (t, .error (.notFound .account id))) ∨
      ∃ row, t.find? id = some row ∧ row.user = user ∧
        ((row.status = .closed ∧ ((close user id).exec now .closed t).2 = (t, .ok false)) ∨
          (row.status ≠ .closed ∧ row.balance.isZero = false ∧
            ((close user id).exec now .closed t).2 =
              (t, .error (.nonZeroBalance id row.balance))) ∨
          (row.status ≠ .closed ∧ row.balance.isZero = true ∧
            ((close user id).exec now .closed t).2 =
              (t.update now { row with status := .closed }, .ok true))) := by
  rw [close]
  rcases exec_ask_ownedAccount now user id _ with hmissing | ⟨row, hrow, howner, hexec⟩
  · exact .inl hmissing
  · rw [hexec]
    refine .inr ⟨row, hrow, howner, ?_⟩
    have hself : t.find? row.id = some row := by rw [Tables.id_of_find? hrow, hrow]
    have hstage : (stageClose user id).exec now {} t = _ := exec_lock hrow _
    rw [if_neg (not_not_intro howner)] at hstage
    by_cases hclosed : row.status = .closed
    · rw [if_pos hclosed] at hstage
      exact .inl ⟨hclosed, by rw [exec_inUnit_ok hstage]; rfl⟩
    · rw [if_neg hclosed] at hstage
      cases hempty : row.balance.isZero with
      | false =>
          simp only [hempty, Bool.not_false, if_true] at hstage
          exact .inr (.inl ⟨hclosed, rfl, exec_inUnit_error (congrArg Prod.snd hstage)⟩)
      | true =>
          refine .inr (.inr ⟨hclosed, rfl, ?_⟩)
          have hstaged : (stageClose user id).exec now {} t =
              (⟨[⟨row.id, row.version, some { row with status := .closed }⟩], [], false⟩, t,
                .ok true) := by
            rw [hstage]
            simp [hempty, ask, Procedure.exec, UnitOfWork.perform, UnitOfWork.save,
              UnitOfWork.holding, UnitOfWork.holds, succeed]
          have hcommit : UnitOfWork.perform _ now t .commit = _ :=
            UnitOfWork.commit_single { row with status := .closed } [] hself rfl
          rw [exec_inUnit_ok hstaged]
          exact congrArg Prod.snd (exec_ask_ok hcommit)

theorem exec_ask_account (id : AccountId) (next : Account → Work α) :
    (t.find? id = none ∧
        ((ask (.account id) next).exec now u t).2 = (t, .error (.notFound .account id))) ∨
      ∃ row, t.find? id = some row ∧
        (ask (.account id) next).exec now u t = (next row).exec now u t := by
  cases hfound : t.find? id with
  | none =>
      have hperform : u.perform now t (.account id) = (u, t, .error (.notFound .account id)) := by
        simp only [UnitOfWork.perform, Tables.account, hfound]
      rw [exec_ask_error hperform]
      exact .inl ⟨rfl, rfl⟩
  | some row =>
      have hperform : u.perform now t (.account id) = (u, t, .ok row) := by
        rw [UnitOfWork.perform, Tables.account_of_find? hfound]
      exact .inr ⟨row, rfl, exec_ask_ok hperform⟩

/-- What is wrong with an amount that cannot be moved between two rows: the first of the conditions
that do not hold. -/
inductive Immovable (source destination : Account) (amount : Decimal) : LedgerError → Prop
  | source_closed (closed : source.status ≠ .active) :
      Immovable source destination amount (.accountClosed source.id)
  | short (from_active : source.status = .active) (uncovered : source.balance < amount) :
      Immovable source destination amount (.insufficientFunds source.id source.balance amount)
  | destination_closed (from_active : source.status = .active) (covered : ¬source.balance < amount)
      (closed : destination.status ≠ .active) :
      Immovable source destination amount (.accountClosed destination.id)
  | underflow (from_active : source.status = .active) (to_active : destination.status = .active)
      (covered : ¬source.balance < amount) (debit : source.balance.sub? amount = none) :
      Immovable source destination amount (.invalidRequest "source balance would underflow")
  | overflow (from_active : source.status = .active) (to_active : destination.status = .active)
      (covered : ¬source.balance < amount) {debited : Decimal}
      (debit : source.balance.sub? amount = some debited)
      (credit : Currency.credit? destination.balance amount = none) :
      Immovable source destination amount (.invalidRequest "destination balance would overflow")

/-- What is wrong with a transfer between two rows. -/
inductive Unmet (r : TransferRequest) (source destination : Account) : LedgerError → Prop
  | currencies (other_currency : source.currency ≠ destination.currency) :
      Unmet r source destination
        (.invalidRequest s!"currency mismatch: {source.currency} to {destination.currency}")
  | places (same_currency : source.currency = destination.currency)
      (unscaled : Currency.scale? r.amount source.currency = none) :
      Unmet r source destination
        (.invalidRequest
          (s!"amount {r.amount.toText} is not representable at the " ++
            s!"{source.currency} minor unit"))
  | immovable {amount : Decimal} {e : LedgerError}
      (same_currency : source.currency = destination.currency)
      (scaled : Currency.scale? r.amount source.currency = some amount)
      (reason : Immovable source destination amount e) : Unmet r source destination e

section Transfer

variable {r : TransferRequest} {source destination : Account} {amount : Decimal}

theorem exec_lockPair (hdistinct : r.source ≠ r.destination)
    (hsource : t.find? r.source = some source)
    (hdestination : t.find? r.destination = some destination) (next : Account → Account → Work α) :
    (lockPair r.source r.destination next).exec now {} t =
      (next source destination).exec now
        (.holding (if r.source < r.destination then [source, destination]
          else [destination, source])) t := by
  have hfrom := Tables.id_of_find? hsource
  have hto := Tables.id_of_find? hdestination
  unfold lockPair
  by_cases hlt : r.source < r.destination
  · have hsecond : (UnitOfWork.holding [source]).perform now t (.lock r.destination) =
        (.holding ([source] ++ [destination]), t, .ok destination) :=
      UnitOfWork.perform_lock hdestination (by simpa [hfrom] using hlt)
    rw [if_pos hlt, if_pos hlt, exec_lock hsource, exec_ask_ok hsecond]
    rfl
  · have hgt : r.destination < r.source :=
      Nat.lt_of_le_of_ne (Nat.le_of_not_lt hlt) (Ne.symm hdistinct)
    have hsecond : (UnitOfWork.holding [destination]).perform now t (.lock r.source) =
        (.holding ([destination] ++ [source]), t, .ok source) :=
      UnitOfWork.perform_lock hsource (by simpa [hto] using hgt)
    rw [if_neg hlt, if_neg hlt, exec_lock hdestination, exec_ask_ok hsecond]
    rfl

/-- The rows of a transfer's unit of work once both are saved, in the order of their ids. -/
def transferRows (r : TransferRequest) (source destination source' destination' : Account) :
    List LockedRow :=
  if r.source < r.destination then
    [⟨source.id, source.version, some source'⟩,
      ⟨destination.id, destination.version, some destination'⟩]
  else
    [⟨destination.id, destination.version, some destination'⟩,
      ⟨source.id, source.version, some source'⟩]

theorem exec_stageTransfer (hdistinct : r.source ≠ r.destination)
    (hsource : t.find? r.source = some source)
    (hdestination : t.find? r.destination = some destination) (amount : Decimal) :
    (∃ e, Immovable source destination amount e ∧
        ((stageTransfer r amount).exec now {} t).2 = (t, .error e)) ∨
      ∃ debited credited, source.status = .active ∧ destination.status = .active ∧
        ¬source.balance < amount ∧ source.balance.sub? amount = some debited ∧
        Currency.credit? destination.balance amount = some credited ∧
        (stageTransfer r amount).exec now {} t =
          (⟨transferRows r source destination { source with balance := debited }
            { destination with balance := credited }, [r.entry amount], false⟩, t, .ok ()) := by
  rw [stageTransfer, exec_lockPair hdistinct hsource hdestination]
  by_cases hfrom : source.status = .active
  · rw [if_neg (not_not_intro hfrom)]
    by_cases hcovered : source.balance < amount
    · rw [if_pos hcovered]
      exact .inl ⟨_, .short hfrom hcovered, rfl⟩
    · rw [if_neg hcovered]
      by_cases hto : destination.status = .active
      · rw [if_neg (not_not_intro hto)]
        cases hdebit : source.balance.sub? amount with
        | none => exact .inl ⟨_, .underflow hfrom hto hcovered hdebit, rfl⟩
        | some debited =>
            cases hcredit : Currency.credit? destination.balance amount with
            | none => exact .inl ⟨_, .overflow hfrom hto hcovered hdebit hcredit, rfl⟩
            | some credited =>
                refine .inr ⟨debited, credited, hfrom, hto, hcovered, rfl, rfl, ?_⟩
                have hids : source.id ≠ destination.id := by
                  rw [Tables.id_of_find? hsource, Tables.id_of_find? hdestination]
                  exact hdistinct
                have hentry : r.entry amount =
                    ⟨r.user, some source.id, destination.id, amount, r.description,
                      r.kind.entry⟩ := by
                  rw [Tables.id_of_find? hsource, Tables.id_of_find? hdestination]
                  rfl
                rw [hentry, transferRows]
                by_cases hlt : r.source < r.destination
                · rw [if_pos hlt, if_pos hlt]
                  simp [ask, Procedure.exec, UnitOfWork.perform, UnitOfWork.save,
                    UnitOfWork.append, UnitOfWork.holding, UnitOfWork.holds, succeed, hids,
                    Ne.symm hids]
                · rw [if_neg hlt, if_neg hlt]
                  simp [ask, Procedure.exec, UnitOfWork.perform, UnitOfWork.save,
                    UnitOfWork.append, UnitOfWork.holding, UnitOfWork.holds, succeed, hids,
                    Ne.symm hids]
      · rw [if_pos hto]
        exact .inl ⟨_, .destination_closed hfrom hcovered hto, rfl⟩
  · rw [if_pos hfrom]
    exact .inl ⟨_, .source_closed hfrom, rfl⟩

theorem commit_transferRows (source' destination' : Account) (entry : NewTransaction)
    (hdistinct : source.id ≠ destination.id) (hsource : t.find? source.id = some source)
    (hdestination : t.find? destination.id = some destination) (hid : source'.id = source.id)
    (hid' : destination'.id = destination.id) (hversion : source'.version = source.version)
    (hversion' : destination'.version = destination.version) :
    ∃ accounts,
      (⟨transferRows r source destination source' destination', [entry], false⟩ :
          UnitOfWork).commit now t =
        (.closed, ((t.update now source').update now destination').enter now entry,
          .ok ⟨accounts, [t.newEntry now entry]⟩) := by
  have hlog : ∀ first second : Account,
      (((t.update now first).update now second).enter now entry).log.drop t.log.length =
        [t.newEntry now entry] := by
    intro first second
    simp [Tables.update]
  unfold transferRows
  split
  · rw [UnitOfWork.commit_pair source' destination' [entry] hsource hdestination hversion
      hversion']
    exact ⟨_, by rw [Tables.enterAll, List.foldl_cons, List.foldl_nil, hlog]⟩
  · have hcomm : (t.update now destination').update now source' =
        (t.update now source').update now destination' := by
      refine Tables.replace_comm ?_
      simp only [Tables.id_stamp, hid, hid']
      exact hdistinct.symm
    rw [UnitOfWork.commit_pair destination' source' [entry] hdestination hsource hversion'
      hversion]
    exact ⟨_, by rw [Tables.enterAll, List.foldl_cons, List.foldl_nil, hlog, hcomm]⟩

theorem exec_exchange (hdistinct : r.source ≠ r.destination)
    (hsource : t.find? r.source = some source)
    (hdestination : t.find? r.destination = some destination) :
    (∃ e, Unmet r source destination e ∧
        ((exchange r source destination).exec now u t).2 = (t, .error e)) ∨
      ∃ amount debited credited, source.currency = destination.currency ∧
        Currency.scale? r.amount source.currency = some amount ∧ source.status = .active ∧
        destination.status = .active ∧ ¬source.balance < amount ∧
        source.balance.sub? amount = some debited ∧
        Currency.credit? destination.balance amount = some credited ∧
        ((exchange r source destination).exec now u t).2 =
          (((t.update now { source with balance := debited }).update now
              { destination with balance := credited }).enter now (r.entry amount),
            .ok (t.newEntry now (r.entry amount))) := by
  have hfrom := Tables.id_of_find? hsource
  have hto := Tables.id_of_find? hdestination
  have hself : t.find? source.id = some source := by rw [hfrom, hsource]
  have hself' : t.find? destination.id = some destination := by rw [hto, hdestination]
  have hids : source.id ≠ destination.id := by
    rw [hfrom, hto]
    exact hdistinct
  unfold exchange
  by_cases hcurrency : source.currency = destination.currency
  · rw [if_neg (not_not_intro hcurrency)]
    cases hscale : Currency.scale? r.amount source.currency with
    | none => exact .inl ⟨_, .places hcurrency hscale, rfl⟩
    | some amount =>
        rcases exec_stageTransfer hdistinct hsource hdestination amount with
          ⟨e, hreason, hstage⟩ |
          ⟨debited, credited, hactive, hactive', hcovered, hdebit, hcredit, hstage⟩
        · exact .inl ⟨e, .immovable hcurrency hscale hreason, exec_inUnit_error hstage⟩
        · refine .inr ⟨amount, debited, credited, hcurrency, rfl, hactive, hactive', hcovered,
            hdebit, hcredit, ?_⟩
          obtain ⟨accounts, hcommit⟩ := commit_transferRows (r := r)
            { source with balance := debited } { destination with balance := credited }
            (r.entry amount) hids hself hself' rfl rfl rfl rfl
          rw [exec_inUnit_ok hstage, exec_commitEntry hcommit rfl]
          rfl
  · rw [if_pos hcurrency]
    exact .inl ⟨_, .currencies hcurrency, rfl⟩

theorem exec_transfer (hdistinct : r.source ≠ r.destination) :
    ((¬∃ row, t.find? r.source = some row ∧ row.user = r.user) ∧
        ((transfer r).exec now .closed t).2 = (t, .error (.notFound .account r.source))) ∨
      ∃ source, t.find? r.source = some source ∧ source.user = r.user ∧
        (((¬∃ row, t.find? r.destination = some row ∧
              (r.kind = .internal → row.user = r.user)) ∧
            ((transfer r).exec now .closed t).2 =
              (t, .error (.notFound .account r.destination))) ∨
          ∃ destination, t.find? r.destination = some destination ∧
            (r.kind = .internal → destination.user = r.user) ∧
            ((∃ e, Unmet r source destination e ∧
                ((transfer r).exec now .closed t).2 = (t, .error e)) ∨
              ∃ amount debited credited, source.currency = destination.currency ∧
                Currency.scale? r.amount source.currency = some amount ∧
                source.status = .active ∧ destination.status = .active ∧
                ¬source.balance < amount ∧ source.balance.sub? amount = some debited ∧
                Currency.credit? destination.balance amount = some credited ∧
                ((transfer r).exec now .closed t).2 =
                  (((t.update now { source with balance := debited }).update now
                      { destination with balance := credited }).enter now (r.entry amount),
                    .ok (t.newEntry now (r.entry amount))))) := by
  rw [transfer_eq]
  rcases exec_ask_ownedAccount now r.user r.source _ with
    hmissing | ⟨source, hsource, howner, hexec⟩
  · exact .inl hmissing
  · rw [hexec]
    refine .inr ⟨source, hsource, howner, ?_⟩
    cases hkind : r.kind with
    | internal =>
        rcases exec_ask_ownedAccount now r.user r.destination (exchange r source) with
          ⟨hmissing, hfailed⟩ | ⟨destination, hdestination, hvisible, hexec'⟩
        · refine .inl ⟨?_, hfailed⟩
          rintro ⟨row, hrow, hvisible⟩
          exact hmissing ⟨row, hrow, hvisible rfl⟩
        · simp only [hexec']
          exact .inr ⟨destination, hdestination, fun _ => hvisible,
            exec_exchange hdistinct hsource hdestination⟩
    | external =>
        rcases exec_ask_account r.destination (exchange r source) with
          ⟨hmissing, hfailed⟩ | ⟨destination, hdestination, hexec'⟩
        · refine .inl ⟨?_, hfailed⟩
          rintro ⟨row, hrow, -⟩
          rw [hmissing] at hrow
          cases hrow
        · simp only [hexec']
          exact .inr ⟨destination, hdestination, (fun h => nomatch h),
            exec_exchange hdistinct hsource hdestination⟩

end Transfer

theorem Orderly.proper_exec {begun : Bool} {found : List AccountId} {p : Work α}
    (h : Orderly begun found p) : Proper (p.exec now u t).2.2 := by
  induction p generalizing begun found u t with
  | done result =>
      cases h with
      | done proper => exact proper
  | call c next ih =>
      obtain ⟨begun', found', hnext⟩ := h.next (u.perform now t c).2.2
      exact ih _ hnext

end Work

end Ledger
