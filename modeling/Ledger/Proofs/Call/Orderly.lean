import Ledger.Call.Request
import Ledger.Proofs.Store.UnitOfWork

namespace Ledger

/-- Whether a call leaves the tables alone and keeps the rows that its unit of work holds, so that
other calls follow it. -/
def StoreCall.isTentative : StoreCall → Bool
  | ownedAccount .. | account _ | begin | lock _ | save _ | append _ => true
  | _ => false

/-- Whether a call can end the store work that it is made in. -/
def StoreCall.isLast : StoreCall → Bool
  | commit | insertAccount _ | ownedAccount .. | accountsOf _ | query _ | transaction _ => true
  | _ => false

namespace Work

variable {α β : Type} {begun : Bool} {found : List AccountId}

/-- A result of store work: only the announcement of a change can fail to be published. -/
def Proper (result : Except LedgerError α) : Prop :=
  ∀ e, result = .error e → e.kind ≠ .publishFailure

/-- Store work that has failed: it gives its unit of work up, if it has one, and returns the
error. -/
inductive Failed : Work α → Prop
  | refused (e : LedgerError) (h : e.kind ≠ .publishFailure) : Failed (refuse e)
  | abandoned (e : LedgerError) (h : e.kind ≠ .publishFailure) : Failed (abort (refuse e))

/-- The order that all store work keeps to. Rows are first looked up without a lock, and of what is
found only the currency matters from then on. Then a unit of work is begun, in which rows that were
found are locked and writes are staged. The unit is committed or given up in the end, and nothing
follows on that, nor on a call that needs no unit. -/
inductive Orderly : Bool → List AccountId → Work α → Prop
  | done {begun : Bool} {found : List AccountId} {result : Except LedgerError α}
      (proper : Proper result) : Orderly begun found (.done result)
  | ownedAccount {found : List AccountId} {owner : UserId} {id : AccountId}
      {next : Except StoreError Account → Work α}
      (failed : ∀ e, ∃ e', e'.kind ≠ .publishFailure ∧ next (.error e) = refuse e')
      (same : ∀ a b : Account, a.currency = b.currency → next (.ok a) = next (.ok b))
      (rest : ∀ row, Orderly false (id :: found) (next (.ok row))) :
      Orderly false found (.call (.ownedAccount owner id) next)
  | account {found : List AccountId} {id : AccountId} {next : Except StoreError Account → Work α}
      (failed : ∀ e, ∃ e', e'.kind ≠ .publishFailure ∧ next (.error e) = refuse e')
      (same : ∀ a b : Account, a.currency = b.currency → next (.ok a) = next (.ok b))
      (rest : ∀ row, Orderly false (id :: found) (next (.ok row))) :
      Orderly false found (.call (.account id) next)
  | begin {found : List AccountId} {next : Except StoreError Unit → Work α}
      (failed : ∀ e, Failed (next (.error e)))
      (rest : Orderly true found (next (.ok ()))) :
      Orderly false found (.call .begin next)
  | lock {found : List AccountId} {id : AccountId} {next : Except StoreError Account → Work α}
      (known : id ∈ found)
      (failed : ∀ e, Failed (next (.error e)))
      (rest : ∀ row, Orderly true found (next (.ok row))) :
      Orderly true found (.call (.lock id) next)
  | save {found : List AccountId} {row : Account} {next : Except StoreError Unit → Work α}
      (failed : ∀ e, Failed (next (.error e)))
      (rest : Orderly true found (next (.ok ()))) :
      Orderly true found (.call (.save row) next)
  | append {found : List AccountId} {new : NewTransaction}
      {next : Except StoreError Unit → Work α}
      (failed : ∀ e, Failed (next (.error e)))
      (rest : Orderly true found (next (.ok ()))) :
      Orderly true found (.call (.append new) next)
  | rollback {found : List AccountId} {result : Except LedgerError α} (proper : Proper result) :
      Orderly true found (abort (.done result))
  | last {begun : Bool} {found : List AccountId} {c : StoreCall} {next : c.Answer → Work α}
      (final : c.isLast = true)
      (failed : ∀ e, ∃ e', e'.kind ≠ .publishFailure ∧ next (.error e) = refuse e')
      (rest : ∀ value, ∃ result, Proper result ∧ next (.ok value) = .done result) :
      Orderly begun found (.call c next)

theorem proper_ok (a : α) : Proper (.ok a) := by
  intro e h
  cases h

theorem proper_error {e : LedgerError} (h : e.kind ≠ .publishFailure) :
    Proper (.error e : Except LedgerError α) := by
  intro e' he
  cases he
  exact h

theorem Proper.map {result : Except LedgerError α} (h : Proper result) (f : α → β) :
    Proper (result.map f) := by
  cases result with
  | ok a => exact proper_ok (f a)
  | error e => exact proper_error (h e rfl)

theorem kind_ofStore (e : StoreError) : (LedgerError.ofStore e).kind ≠ .publishFailure := by
  cases e <;> simp [LedgerError.ofStore, LedgerError.kind]

theorem Failed.orderly {p : Work α} (h : Failed p) : Orderly true found p := by
  cases h with
  | refused e he => exact .done (proper_error he)
  | abandoned e he => exact .rollback (proper_error he)

theorem Orderly.next {c : StoreCall} {next : c.Answer → Work α}
    (h : Orderly begun found (.call c next)) (a : c.Answer) :
    ∃ begun' found', Orderly begun' found' (next a) := by
  have hrefuse : ∀ {p : Work α}, (∃ e, e.kind ≠ .publishFailure ∧ p = refuse e) →
      ∃ begun' found', Orderly begun' found' p := by
    rintro p ⟨e, he, rfl⟩
    exact ⟨begun, found, .done (proper_error he)⟩
  cases h with
  | ownedAccount failed _ rest | account failed _ rest =>
      cases a with
      | ok row => exact ⟨_, _, rest row⟩
      | error e => exact hrefuse (failed e)
  | begin failed rest | save failed rest | append failed rest =>
      cases a with
      | ok => exact ⟨_, _, rest⟩
      | error e => exact ⟨true, found, (failed e).orderly⟩
  | lock _ failed rest =>
      cases a with
      | ok row => exact ⟨_, _, rest row⟩
      | error e => exact ⟨true, found, (failed e).orderly⟩
  | rollback proper => exact ⟨true, found, .done proper⟩
  | last _ failed rest =>
      cases a with
      | ok value =>
          obtain ⟨result, proper, hresult⟩ := rest value
          exact ⟨begun, found, hresult ▸ .done proper⟩
      | error e => exact hrefuse (failed e)

theorem Orderly.tentative_or_done {c : StoreCall} {next : c.Answer → Work α}
    (h : Orderly begun found (.call c next)) :
    c.isTentative = true ∨ ∀ a, ∃ result, Proper result ∧ next a = .done result := by
  cases h with
  | rollback proper => exact .inr fun _ => ⟨_, proper, rfl⟩
  | last _ failed rest =>
      refine .inr fun a => ?_
      cases a with
      | ok value => exact rest value
      | error e =>
          obtain ⟨e', he, hrefuse⟩ := failed e
          exact ⟨.error e', proper_error he, hrefuse⟩
  | _ => exact .inl rfl

theorem Orderly.ne_saveAccount {c : StoreCall} {next : c.Answer → Work α}
    (h : Orderly begun found (.call c next)) (row : Account) : c ≠ .saveAccount row := by
  rintro rfl
  cases h with
  | last final _ _ => cases final

theorem Orderly.fail {c : StoreCall} {next : c.Answer → Work α}
    (h : Orderly begun found (.call c next)) (e : StoreError) :
    Failed (next (.error e)) ∨
      c = .rollback ∧ ∃ result, Proper result ∧ ∀ a, next a = .done result := by
  cases h with
  | begin failed _ | lock _ failed _ | save failed _ | append failed _ => exact .inl (failed e)
  | rollback proper => exact .inr ⟨rfl, _, proper, fun _ => rfl⟩
  | ownedAccount failed _ _ | account failed _ _ | last _ failed _ =>
      obtain ⟨e', he, hrefuse⟩ := failed e
      exact .inl (hrefuse ▸ .refused e' he)

theorem Failed.of_call {c : StoreCall} {next : c.Answer → Work α} (h : Failed (.call c next)) :
    c = .rollback ∧ ∃ e, LedgerError.kind e ≠ .publishFailure ∧ ∀ a, next a = refuse e := by
  generalize hp : (Program.call c next : Work α) = p at h
  cases h with
  | refused e he => cases hp
  | abandoned e he =>
      cases hp
      exact ⟨rfl, e, he, fun _ => rfl⟩

theorem Orderly.map {p : Work α} (h : Orderly begun found p) (f : α → β) :
    Orderly begun found (p.bind fun result => .done (result.map f)) := by
  have hrefuse : ∀ {p : Work α}, (∃ e, e.kind ≠ .publishFailure ∧ p = refuse e) →
      ∃ e, e.kind ≠ .publishFailure ∧
        p.bind (fun result => .done (result.map f)) = (refuse e : Work β) := by
    rintro p ⟨e, he, rfl⟩
    exact ⟨e, he, rfl⟩
  have hfailed : ∀ {p : Work α}, Failed p →
      Failed (p.bind fun result => (.done (result.map f) : Work β)) := by
    intro p hp
    cases hp with
    | refused e he => exact .refused e he
    | abandoned e he => exact .abandoned e he
  induction h with
  | done proper => exact .done (proper.map f)
  | ownedAccount failed same _ ih =>
      exact .ownedAccount (fun e => hrefuse (failed e))
        (fun a b hab => by rw [same a b hab]) ih
  | account failed same _ ih =>
      exact .account (fun e => hrefuse (failed e)) (fun a b hab => by rw [same a b hab]) ih
  | begin failed _ ih => exact .begin (fun e => hfailed (failed e)) ih
  | lock known failed _ ih => exact .lock known (fun e => hfailed (failed e)) ih
  | save failed _ ih => exact .save (fun e => hfailed (failed e)) ih
  | append failed _ ih => exact .append (fun e => hfailed (failed e)) ih
  | rollback proper => exact .rollback (proper.map f)
  | last final failed rest =>
      refine .last final (fun e => hrefuse (failed e)) ?_
      intro value
      obtain ⟨result, hproper, hresult⟩ := rest value
      exact ⟨result.map f, hproper.map f, by rw [hresult]; rfl⟩

theorem refuse_ofStore (e : StoreError) :
    ∃ e', LedgerError.kind e' ≠ .publishFailure ∧ (refuse (.ofStore e) : Work α) = refuse e' :=
  ⟨.ofStore e, kind_ofStore e, rfl⟩

theorem Orderly.ask_last {c : StoreCall} {next : c.Value → α} (final : c.isLast = true) :
    Orderly begun found (ask c fun value => succeed (next value)) :=
  .last final refuse_ofStore fun value => ⟨.ok (next value), proper_ok _, rfl⟩

theorem Orderly.ask_ownedAccount {owner : UserId} {id : AccountId} {next : Account → Work α}
    (same : ∀ a b : Account, a.currency = b.currency → next a = next b)
    (rest : ∀ row, Orderly false (id :: found) (next row)) :
    Orderly false found (ask (.ownedAccount owner id) next) :=
  .ownedAccount refuse_ofStore same rest

theorem Orderly.ask_account {id : AccountId} {next : Account → Work α}
    (same : ∀ a b : Account, a.currency = b.currency → next a = next b)
    (rest : ∀ row, Orderly false (id :: found) (next row)) :
    Orderly false found (ask (.account id) next) :=
  .account refuse_ofStore same rest

/-- How work goes on when what it does in its unit has ended. -/
def closing (finish : β → Work α) : Except LedgerError β → Work α
  | .ok staged => finish staged
  | .error e => abort (refuse e)

theorem Orderly.inUnit {stage : Work β} {finish : β → Work α}
    (h : Orderly true found (stage.bind (closing finish))) :
    Orderly false found (inUnit stage finish) := by
  refine .begin (fun e => .refused _ (kind_ofStore e)) ?_
  have hclosing : (fun result : Except LedgerError β =>
      match result with
      | .ok staged => finish staged
      | .error e => abort (refuse e)) = closing finish := by
    funext result
    cases result <;> rfl
  exact hclosing ▸ h

section Staging

variable {finish : β → Work α}

theorem Orderly.refuse_closing {e : LedgerError} (h : e.kind ≠ .publishFailure) :
    Orderly true found ((refuse e).bind (closing finish)) :=
  .rollback (proper_error h)

theorem failed_closing (e : StoreError) :
    Failed ((refuse (.ofStore e)).bind (closing finish)) :=
  .abandoned _ (kind_ofStore e)

theorem Orderly.lock_closing {id : AccountId} {next : Account → Work β} (known : id ∈ found)
    (rest : ∀ row, Orderly true found ((next row).bind (closing finish))) :
    Orderly true found ((ask (.lock id) next).bind (closing finish)) :=
  .lock known failed_closing rest

theorem Orderly.save_closing {row : Account} {next : Unit → Work β}
    (rest : Orderly true found ((next ()).bind (closing finish))) :
    Orderly true found ((ask (.save row) next).bind (closing finish)) :=
  .save failed_closing rest

theorem Orderly.append_closing {new : NewTransaction} {next : Unit → Work β}
    (rest : Orderly true found ((next ()).bind (closing finish))) :
    Orderly true found ((ask (.append new) next).bind (closing finish)) :=
  .append failed_closing rest

end Staging

theorem Orderly.commitEntry {next : Committed → Transaction → Work α}
    (h : ∀ committed entry, ∃ a, next committed entry = succeed a) :
    Orderly true found (commitEntry next) := by
  refine .last rfl refuse_ofStore ?_
  intro committed
  cases hentry : committed.transactions.getLast? with
  | none =>
      refine ⟨.error (.persistence (.unavailable "commit returned no transaction")),
        proper_error (by decide), ?_⟩
      simp only [hentry]
      rfl
  | some entry =>
      obtain ⟨a, ha⟩ := h committed entry
      refine ⟨.ok a, proper_ok a, ?_⟩
      simp only [hentry, ha]
      rfl

theorem orderly_deposit (user : UserId) (account : AccountId) (amount : Decimal) :
    Orderly false [] (deposit user account amount) := by
  refine .ask_ownedAccount ?_ ?_
  · intro a b hcurrency
    simp only [hcurrency]
  · intro row
    split
    · exact .done (proper_error (by simp [LedgerError.kind]))
    · refine .inUnit (.lock_closing (by simp) ?_)
      intro locked
      split
      · exact .refuse_closing (by simp [LedgerError.kind])
      · split
        · exact .refuse_closing (by simp [LedgerError.kind])
        · split
          · exact .refuse_closing (by simp [LedgerError.kind])
          · refine .save_closing (.append_closing (.commitEntry ?_))
            intro committed entry
            split
            · exact ⟨_, rfl⟩
            · exact ⟨_, rfl⟩

theorem orderly_close (user : UserId) (account : AccountId) :
    Orderly false [] (close user account) := by
  refine .ask_ownedAccount (fun _ _ _ => rfl) ?_
  intro row
  refine .inUnit (.lock_closing (by simp) ?_)
  intro locked
  split
  · exact .refuse_closing (by simp [LedgerError.kind])
  · split
    · exact .rollback (proper_ok false)
    · split
      · exact .refuse_closing (by simp [LedgerError.kind])
      · exact .save_closing (.last rfl refuse_ofStore fun _ => ⟨.ok true, proper_ok true, rfl⟩)

theorem Orderly.lockPair_closing {source destination : AccountId}
    {next : Account → Account → Work β} {finish : β → Work α} (hsource : source ∈ found)
    (hdestination : destination ∈ found)
    (rest : ∀ debited credited,
      Orderly true found ((next debited credited).bind (closing finish))) :
    Orderly true found ((lockPair source destination next).bind (closing finish)) := by
  unfold lockPair
  split
  · exact .lock_closing hsource fun debited => .lock_closing hdestination fun credited =>
      rest debited credited
  · exact .lock_closing hdestination fun credited => .lock_closing hsource fun debited =>
      rest debited credited

theorem orderly_stageTransfer (r : TransferRequest) (amount : Decimal)
    {finish : Unit → Work α} (hsource : r.source ∈ found) (hdestination : r.destination ∈ found)
    (h : Orderly true found (finish ())) :
    Orderly true found ((stageTransfer r amount).bind (closing finish)) := by
  refine .lockPair_closing hsource hdestination ?_
  intro source destination
  split
  · exact .refuse_closing (by simp [LedgerError.kind])
  · split
    · exact .refuse_closing (by simp [LedgerError.kind])
    · split
      · exact .refuse_closing (by simp [LedgerError.kind])
      · split
        · exact .refuse_closing (by simp [LedgerError.kind])
        · split
          · exact .refuse_closing (by simp [LedgerError.kind])
          · exact .save_closing (.save_closing (.append_closing h))

/-- What a transfer does once both rows are found. -/
def exchange (r : TransferRequest) (source destination : Account) : Work Transaction :=
  if source.currency ≠ destination.currency then
    refuse (.invalidRequest
      s!"currency mismatch: {source.currency} to {destination.currency}")
  else
    match Currency.scale? r.amount source.currency with
    | none =>
        refuse (.invalidRequest
          (s!"amount {r.amount.toText} is not representable at the " ++
            s!"{source.currency} minor unit"))
    | some amount =>
        inUnit (stageTransfer r amount) fun _ => commitEntry fun _ entry => succeed entry

theorem exchange_congr (r : TransferRequest) {a b c d : Account} (hac : a.currency = c.currency)
    (hbd : b.currency = d.currency) : exchange r a b = exchange r c d := by
  simp only [exchange, hac, hbd]

theorem orderly_exchange (r : TransferRequest) (source destination : Account)
    (hsource : r.source ∈ found) (hdestination : r.destination ∈ found) :
    Orderly false found (exchange r source destination) := by
  unfold exchange
  split
  · exact .done (proper_error (by simp [LedgerError.kind]))
  · split
    · exact .done (proper_error (by simp [LedgerError.kind]))
    · exact .inUnit (orderly_stageTransfer r _ hsource hdestination
        (.commitEntry fun _ entry => ⟨entry, rfl⟩))

theorem transfer_eq (r : TransferRequest) :
    transfer r = ask (.ownedAccount r.user r.source) fun source =>
      match r.kind with
      | .internal => ask (.ownedAccount r.user r.destination) (exchange r source)
      | .external => ask (.account r.destination) (exchange r source) :=
  rfl

theorem orderly_transfer (r : TransferRequest) : Orderly false [] (transfer r) := by
  rw [transfer_eq]
  refine .ask_ownedAccount ?_ ?_
  · intro a b hcurrency
    have hexchange : exchange r a = exchange r b :=
      funext fun row => exchange_congr r hcurrency rfl
    rw [hexchange]
  · intro source
    split
    · exact .ask_ownedAccount (fun _ _ h => exchange_congr r rfl h) fun destination =>
        orderly_exchange r source destination (by simp) (by simp)
    · exact .ask_account (fun _ _ h => exchange_congr r rfl h) fun destination =>
        orderly_exchange r source destination (by simp) (by simp)

end Work

namespace Request

/-- The store work of a request; one whose arguments are refused does nothing at the store. -/
def program (r : Request) (config : Config) : Work Reply :=
  match r.work config with
  | .ok work => work
  | .error e => Work.refuse e

variable {config : Config}

theorem program_openAccount (user : UserId) (product currency : String) :
    (openAccount user product currency).program config =
      match NewAccount.ofInput user product currency with
      | .ok new => work.reply (Work.openAccount new) .opened
      | .error e => Work.refuse e := by
  unfold program
  rw [show (openAccount user product currency).work config =
    (NewAccount.ofInput user product currency).map fun new =>
      work.reply (Work.openAccount new) .opened from rfl]
  cases NewAccount.ofInput user product currency <;> rfl

theorem program_deposit (user : UserId) (id : AccountId) (amount : Decimal) :
    (deposit user id amount).program config =
      if amount ≤ 0 then Work.refuse (.invalidAmount amount "must be positive")
      else work.reply (Work.deposit user id amount) fun done => .deposited done.1 done.2 := by
  unfold program
  rw [show (deposit user id amount).work config =
    if amount ≤ 0 then .error (.invalidAmount amount "must be positive")
    else .ok (work.reply (Work.deposit user id amount) fun done => .deposited done.1 done.2)
    from rfl]
  by_cases hpositive : amount ≤ 0
  · simp only [if_pos hpositive]
  · simp only [if_neg hpositive]

theorem program_transfer (r : TransferRequest) :
    (transfer r).program config =
      if r.amount ≤ 0 then Work.refuse (.invalidRequest "amount must be positive")
      else if r.source = r.destination then
        Work.refuse (.invalidRequest "cannot transfer to the same account")
      else work.reply (Work.transfer r) .transferred := by
  unfold program
  rw [show (transfer r).work config =
    if r.amount ≤ 0 then .error (.invalidRequest "amount must be positive")
    else if r.source = r.destination then
      .error (.invalidRequest "cannot transfer to the same account")
    else .ok (work.reply (Work.transfer r) .transferred) from rfl]
  by_cases hpositive : r.amount ≤ 0
  · simp only [if_pos hpositive]
  · by_cases hsame : r.source = r.destination
    · simp only [if_neg hpositive, if_pos hsame]
    · simp only [if_neg hpositive, if_neg hsame]

theorem program_close (user : UserId) (id : AccountId) :
    (close user id).program config = work.reply (Work.close user id) .closed :=
  rfl

theorem proper_ofInput {user : UserId} {product currency : String} {e : LedgerError}
    (h : NewAccount.ofInput user product currency = .error e) : e.kind ≠ .publishFailure := by
  unfold NewAccount.ofInput at h
  simp only at h
  split at h
  · cases h
    simp [LedgerError.kind]
  · split at h
    · cases h
      simp [LedgerError.kind]
    · cases h

theorem error_of_program_done {r : Request} {result : Except LedgerError Reply}
    (h : r.program config = .done result) : ∃ e, result = .error e := by
  cases r with
  | openAccount user product currency =>
      rw [program_openAccount] at h
      split at h
      · cases h
      · cases h
        exact ⟨_, rfl⟩
  | deposit user id amount =>
      rw [program_deposit] at h
      split at h
      · cases h
        exact ⟨_, rfl⟩
      · cases h
  | transfer r =>
      rw [program_transfer] at h
      split at h
      · cases h
        exact ⟨_, rfl⟩
      · split at h
        · cases h
          exact ⟨_, rfl⟩
        · cases h
  | _ => cases h

theorem orderly_program (r : Request) (config : Config) :
    Work.Orderly false [] (r.program config) := by
  cases r with
  | openAccount user product currency =>
      rw [program_openAccount]
      split
      · rename_i new _
        have h : Work.Orderly false [] (Work.openAccount new) := Work.Orderly.ask_last rfl
        exact h.map _
      · rename_i e hnew
        exact .done (Work.proper_error (proper_ofInput hnew))
  | deposit user id amount =>
      rw [program_deposit]
      split
      · exact .done (Work.proper_error (by simp [LedgerError.kind]))
      · exact (Work.orderly_deposit user id amount).map _
  | transfer r =>
      rw [program_transfer]
      split
      · exact .done (Work.proper_error (by simp [LedgerError.kind]))
      · split
        · exact .done (Work.proper_error (by simp [LedgerError.kind]))
        · exact (Work.orderly_transfer r).map _
  | close user id => exact (Work.orderly_close user id).map _
  | accounts user => exact Work.Orderly.ask_last rfl
  | account user id => exact Work.Orderly.ask_last rfl
  | transactions filter => exact Work.Orderly.ask_last rfl
  | transaction id => exact Work.Orderly.ask_last rfl

end Request

end Ledger
