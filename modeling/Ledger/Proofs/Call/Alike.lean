import Ledger.Proofs.Store.Alike

namespace Ledger

variable {R : Timestamp → Timestamp → Prop} {now now' : Timestamp}

/-- Two store calls that do the same, up to times, to tables and units of work that are alike. -/
def StoreCall.Alike (R : Timestamp → Timestamp → Prop) (now now' : Timestamp) (c c' : StoreCall)
    (V : c.Value → c'.Value → Prop) : Prop :=
  ∀ u u' t t', UnitOfWork.Alike R u u' → Tables.Alike R t t' →
    EndAlike R V (u.perform now t c) (u'.perform now' t' c')

namespace StoreCall

theorem alike_ownedAccount (owner : UserId) (id : AccountId) :
    Alike R now now' (.ownedAccount owner id) (.ownedAccount owner id) (Account.Alike R) :=
  fun _ _ _ _ hu ht => ⟨hu, ht, ht.ownedAccount owner id⟩

theorem alike_account (id : AccountId) :
    Alike R now now' (.account id) (.account id) (Account.Alike R) :=
  fun _ _ _ _ hu ht => ⟨hu, ht, ht.account id⟩

theorem alike_accountsOf (owner : UserId) :
    Alike R now now' (.accountsOf owner) (.accountsOf owner) (List.Forall₂ (Account.Alike R)) :=
  fun _ _ _ _ hu ht => ⟨hu, ht, .ok (ht.accountsOf owner)⟩

theorem alike_insertAccount (hnow : R now now') (new : NewAccount) :
    Alike R now now' (.insertAccount new) (.insertAccount new) (Account.Alike R) :=
  fun _ _ _ _ hu ht => ⟨hu, ht.insert hnow new, .ok (ht.newRow hnow new)⟩

theorem alike_query {f f' : Filter} (hf : f.Alike R f') :
    Alike R now now' (.query f) (.query f') fun entries entries' =>
      KeepsOrder R → List.Forall₂ (Transaction.Alike R) entries entries' :=
  fun _ _ _ _ hu ht => ⟨hu, ht, .ok fun hR => hf.page? hR ht.log⟩

theorem alike_transaction (id : TransactionId) :
    Alike R now now' (.transaction id) (.transaction id) (Transaction.Alike R) :=
  fun _ _ _ _ hu ht => ⟨hu, ht, ht.transaction id⟩

theorem alike_begin : Alike R now now' .begin .begin Eq :=
  fun _ _ _ _ _ ht => ⟨UnitOfWork.alike_new, ht, .ok rfl⟩

theorem alike_lock (id : AccountId) :
    Alike R now now' (.lock id) (.lock id) (Account.Alike R) := by
  intro u u' t t' hu ht
  simp only [UnitOfWork.perform]
  rw [hu.finished, hu.holds]
  split
  · exact ⟨hu, ht, .error _⟩
  · split
    · exact ⟨hu, ht, hu.view ht id⟩
    · have hfound := ht.account id
      generalize t.account id = found, t'.account id = found' at hfound ⊢
      cases hfound with
      | ok hrow => exact ⟨hu.hold hrow, ht, .ok hrow⟩
      | error e => exact ⟨hu, ht, .error e⟩

theorem alike_save {row row' : Account} (hrow : row.Alike R row') :
    Alike R now now' (.save row) (.save row') Eq :=
  fun _ _ _ _ hu ht => hu.save ht hrow

theorem alike_append (new : NewTransaction) : Alike R now now' (.append new) (.append new) Eq :=
  fun _ _ _ _ hu ht => hu.append ht new

theorem alike_commit (hnow : R now now') :
    Alike R now now' .commit .commit (Committed.Alike R) :=
  fun _ _ _ _ hu ht => hu.commit ht hnow

end StoreCall

namespace Work

variable {α β γ δ : Type} {S : α → β → Prop} {T : γ → δ → Prop}

/-- Two pieces of work that end alike on tables and units of work that are alike. -/
def Alike (R : Timestamp → Timestamp → Prop) (now now' : Timestamp) (S : α → β → Prop)
    (p : Work α) (p' : Work β) : Prop :=
  ∀ u u' t t', UnitOfWork.Alike R u u' → Tables.Alike R t t' →
    EndAlike R S (p.exec now u t) (p'.exec now' u' t')

namespace Alike

theorem succeed {a : α} {b : β} (h : S a b) :
    Alike R now now' S (Work.succeed a) (Work.succeed b) :=
  fun _ _ _ _ hu ht => ⟨hu, ht, .ok h⟩

theorem refuse (e : LedgerError) :
    Alike R now now' S (Work.refuse e : Work α) (Work.refuse e : Work β) :=
  fun _ _ _ _ hu ht => ⟨hu, ht, .error e⟩

theorem ask {c c' : StoreCall} {V : c.Value → c'.Value → Prop} {next : c.Value → Work α}
    {next' : c'.Value → Work β} (hc : StoreCall.Alike R now now' c c' V)
    (hnext : ∀ v v', V v v' → Alike R now now' S (next v) (next' v')) :
    Alike R now now' S (Work.ask c next) (Work.ask c' next') := by
  intro u u' t t' hu ht
  obtain ⟨hunit, htables, hanswer⟩ := hc u u' t t' hu ht
  rw [Work.ask, Work.ask, Procedure.exec_call, Procedure.exec_call]
  generalize (u.perform now t c).2.2 = answer, (u'.perform now' t' c').2.2 = answer'
    at hanswer ⊢
  cases hanswer with
  | ok hvalue => exact hnext _ _ hvalue _ _ _ _ hunit htables
  | error e => exact refuse (.ofStore e) _ _ _ _ hunit htables

theorem bind {p : Work γ} {p' : Work δ} {k : Except LedgerError γ → Work α}
    {k' : Except LedgerError δ → Work β} (hp : Alike R now now' T p p')
    (hk : ∀ a b, Agree T a b → Alike R now now' S (k a) (k' b)) :
    Alike R now now' S (Program.bind p k) (Program.bind p' k') := by
  intro u u' t t' hu ht
  obtain ⟨hunit, htables, hresult⟩ := hp u u' t t' hu ht
  rw [Procedure.exec_bind, Procedure.exec_bind]
  exact hk _ _ hresult _ _ _ _ hunit htables

theorem abort {next : Work α} {next' : Work β} (h : Alike R now now' S next next') :
    Alike R now now' S (Work.abort next) (Work.abort next') := by
  intro u u' t t' hu ht
  obtain ⟨hunit, htables, -⟩ := hu.rollback ht
  rw [Work.abort, Work.abort, Procedure.exec_call, Procedure.exec_call]
  exact h _ _ _ _ hunit htables

theorem inUnit {stage : Work γ} {stage' : Work δ} {finish : γ → Work α} {finish' : δ → Work β}
    (hstage : Alike R now now' T stage stage')
    (hfinish : ∀ a b, T a b → Alike R now now' S (finish a) (finish' b)) :
    Alike R now now' S (Work.inUnit stage finish) (Work.inUnit stage' finish') := by
  refine ask StoreCall.alike_begin fun _ _ _ => hstage.bind ?_
  rintro _ _ (hstaged | e)
  · exact hfinish _ _ hstaged
  · exact abort (refuse e)

theorem commitEntry (hnow : R now now') {next : Committed → Transaction → Work α}
    {next' : Committed → Transaction → Work β}
    (hnext : ∀ c c' e e', c.Alike R c' → e.Alike R e' →
      Alike R now now' S (next c e) (next' c' e')) :
    Alike R now now' S (Work.commitEntry next) (Work.commitEntry next') := by
  refine ask (StoreCall.alike_commit hnow) fun c c' hc => ?_
  match c.transactions.getLast?, c'.transactions.getLast?, forall₂_getLast? hc.transactions with
  | _, _, .none => exact refuse _
  | _, _, .some hentry => exact hnext _ _ _ _ hc hentry

end Alike

theorem alike_openAccount (hnow : R now now') (new : NewAccount) :
    Alike R now now' (Account.Alike R) (openAccount new) (openAccount new) :=
  .ask (StoreCall.alike_insertAccount hnow new) fun _ _ hrow => .succeed hrow

theorem alike_stageDeposit (user : UserId) (id : AccountId) (amount : Decimal) :
    Alike R now now' (Account.Alike R) (stageDeposit user id amount)
      (stageDeposit user id amount) := by
  refine .ask (StoreCall.alike_lock id) fun row row' hrow => ?_
  rw [hrow.user, hrow.status, hrow.balance]
  split
  · exact .refuse _
  · split
    · exact .refuse _
    · split
      · exact .refuse _
      · refine .ask (StoreCall.alike_save ?_) fun _ _ _ =>
          .ask (StoreCall.alike_append _) fun _ _ _ => .succeed ?_
        · exact { hrow with user := rfl, status := rfl, balance := rfl }
        · exact { hrow with user := rfl, status := rfl, balance := rfl }

/-- Rows with log entries that are alike. -/
def BothAlike (R : Timestamp → Timestamp → Prop) (x y : Account × Transaction) : Prop :=
  x.1.Alike R y.1 ∧ x.2.Alike R y.2

theorem alike_deposit (hnow : R now now') (user : UserId) (id : AccountId) (amount : Decimal) :
    Alike R now now' (BothAlike R) (deposit user id amount) (deposit user id amount) := by
  refine .ask (StoreCall.alike_ownedAccount user id) fun found found' hfound => ?_
  rw [hfound.currency]
  split
  · exact .refuse _
  · refine .inUnit (alike_stageDeposit user id _) fun staged staged' hstaged => ?_
    refine .commitEntry hnow fun c c' e e' hc hentry => ?_
    have hwritten : Option.Rel (Account.Alike R) (c.accounts.find? (·.id = id))
        (c'.accounts.find? (·.id = id)) :=
      forall₂_find? hc.accounts fun _ _ hrow => by rw [hrow.id]
    generalize c.accounts.find? (·.id = id) = row, c'.accounts.find? (·.id = id) = row'
      at hwritten ⊢
    cases hwritten with
    | some hrow => exact .succeed ⟨hrow, hentry⟩
    | none =>
        simp only [hstaged.version]
        exact .succeed ⟨{ hstaged with version := rfl }, hentry⟩

theorem alike_stageClose (user : UserId) (id : AccountId) :
    Alike R now now' Eq (stageClose user id) (stageClose user id) := by
  refine .ask (StoreCall.alike_lock id) fun row row' hrow => ?_
  rw [hrow.user, hrow.status, hrow.balance]
  split
  · exact .refuse _
  · split
    · exact .succeed rfl
    · split
      · exact .refuse _
      · refine .ask (StoreCall.alike_save ?_) fun _ _ _ => .succeed rfl
        exact { hrow with user := rfl, balance := rfl, status := rfl }

theorem alike_close (hnow : R now now') (user : UserId) (id : AccountId) :
    Alike R now now' Eq (close user id) (close user id) := by
  refine .ask (StoreCall.alike_ownedAccount user id) fun _ _ _ => ?_
  refine .inUnit (alike_stageClose user id) ?_
  rintro changed _ rfl
  cases changed with
  | true => exact .ask (StoreCall.alike_commit hnow) fun _ _ _ => .succeed rfl
  | false => exact .abort (.succeed rfl)

theorem alike_lockPair (source destination : AccountId) {next next' : Account → Account → Work α}
    {S : α → α → Prop}
    (hnext : ∀ a a' b b', a.Alike R a' → b.Alike R b' →
      Alike R now now' S (next a b) (next' a' b')) :
    Alike R now now' S (lockPair source destination next) (lockPair source destination next') := by
  unfold lockPair
  split
  · exact .ask (StoreCall.alike_lock source) fun _ _ ha =>
      .ask (StoreCall.alike_lock destination) fun _ _ hb => hnext _ _ _ _ ha hb
  · exact .ask (StoreCall.alike_lock destination) fun _ _ hb =>
      .ask (StoreCall.alike_lock source) fun _ _ ha => hnext _ _ _ _ ha hb

theorem alike_stageTransfer (r : TransferRequest) (amount : Decimal) :
    Alike R now now' Eq (stageTransfer r amount) (stageTransfer r amount) := by
  refine alike_lockPair r.source r.destination fun source source' destination destination' hsource
    hdestination => ?_
  rw [hsource.status, hsource.id, hsource.balance, hdestination.status, hdestination.id,
    hdestination.balance]
  split
  · exact .refuse _
  · split
    · exact .refuse _
    · split
      · exact .refuse _
      · split
        · exact .refuse _
        · split
          · exact .refuse _
          · refine .ask (StoreCall.alike_save ?_) fun _ _ _ =>
              .ask (StoreCall.alike_save ?_) fun _ _ _ =>
                .ask (StoreCall.alike_append _) fun _ _ _ => .succeed rfl
            · exact { hsource with id := rfl, status := rfl, balance := rfl }
            · exact { hdestination with id := rfl, status := rfl, balance := rfl }

theorem alike_exchange (hnow : R now now') (r : TransferRequest)
    {source source' destination destination' : Account} (hsource : source.Alike R source')
    (hdestination : destination.Alike R destination') :
    Alike R now now' (Transaction.Alike R) (exchange r source destination)
      (exchange r source' destination') := by
  rw [exchange_congr r hsource.currency hdestination.currency]
  unfold exchange
  split
  · exact .refuse _
  · split
    · exact .refuse _
    · exact .inUnit (alike_stageTransfer r _) fun _ _ _ =>
        .commitEntry hnow fun _ _ _ _ _ hentry => .succeed hentry

theorem alike_transfer (hnow : R now now') (r : TransferRequest) :
    Alike R now now' (Transaction.Alike R) (transfer r) (transfer r) := by
  rw [transfer_eq]
  refine .ask (StoreCall.alike_ownedAccount r.user r.source) fun source source' hsource => ?_
  split
  · exact .ask (StoreCall.alike_ownedAccount r.user r.destination) fun _ _ hdestination =>
      alike_exchange hnow r hsource hdestination
  · exact .ask (StoreCall.alike_account r.destination) fun _ _ hdestination =>
      alike_exchange hnow r hsource hdestination

end Work

/-- Replies that differ at most in times. The pages of a query are only compared where the order of
the times is the same. -/
inductive Reply.Alike (R : Timestamp → Timestamp → Prop) : Reply → Reply → Prop
  | opened {a b : Account} (row : a.Alike R b) : Alike R (.opened a) (.opened b)
  | deposited {a b : Account} {e e' : Transaction} (row : a.Alike R b) (entry : e.Alike R e') :
      Alike R (.deposited a e) (.deposited b e')
  | transferred {e e' : Transaction} (entry : e.Alike R e') :
      Alike R (.transferred e) (.transferred e')
  | closed (changed : Bool) : Alike R (.closed changed) (.closed changed)
  | accounts {l l' : List Account} (rows : List.Forall₂ (Account.Alike R) l l') :
      Alike R (.accounts l) (.accounts l')
  | account {a b : Account} (row : a.Alike R b) : Alike R (.account a) (.account b)
  | transactions {l l' : List Transaction}
      (entries : KeepsOrder R → List.Forall₂ (Transaction.Alike R) l l') :
      Alike R (.transactions l) (.transactions l')
  | transaction {e e' : Transaction} (entry : e.Alike R e') :
      Alike R (.transaction e) (.transaction e')

/-- The same request, but for bounds on time. -/
inductive Request.Alike (R : Timestamp → Timestamp → Prop) : Request → Request → Prop
  | same {r : Request} (other : ∀ f, r ≠ .transactions f) : Alike R r r
  | transactions {f f' : Filter} (filter : f.Alike R f') :
      Alike R (.transactions f) (.transactions f')

namespace Request

variable {config config' : Config} {r r' : Request} {t t' : Tables}

theorem alike_reply {α : Type} {T : α → α → Prop} {w w' : Work α} {f : α → Reply}
    (hw : Work.Alike R now now' T w w') (hf : ∀ a b, T a b → (f a).Alike R (f b)) :
    Work.Alike R now now' (Reply.Alike R) (work.reply w f) (work.reply w' f) := by
  refine hw.bind ?_
  rintro _ _ (h | e)
  · exact .succeed (hf _ _ h)
  · exact .refuse e

theorem alike_program (hnow : R now now') (hr : r.Alike R r')
    (hsizes : ∀ requested, config.pageLimit requested = config'.pageLimit requested) :
    Work.Alike R now now' (Reply.Alike R) (r.program config) (r'.program config') := by
  cases hr with
  | @transactions f f' hf =>
      refine .ask (StoreCall.alike_query ?_) fun _ _ h => .succeed (.transactions h)
      exact { hf with
        page := congrArg (max · 1) hf.page
        limit := by rw [hf.limit, hsizes] }
  | same hother =>
      cases r with
      | openAccount user product currency =>
          rw [program_openAccount, program_openAccount]
          split
          · exact alike_reply (Work.alike_openAccount hnow _) fun _ _ => .opened
          · exact .refuse _
      | deposit user id amount =>
          rw [program_deposit, program_deposit]
          split
          · exact .refuse _
          · exact alike_reply (Work.alike_deposit hnow user id amount)
              fun _ _ h => .deposited h.1 h.2
      | transfer r =>
          rw [program_transfer, program_transfer]
          split
          · exact .refuse _
          · split
            · exact .refuse _
            · exact alike_reply (Work.alike_transfer hnow r) fun _ _ => .transferred
      | close user id =>
          refine alike_reply (Work.alike_close hnow user id) ?_
          rintro changed _ rfl
          exact .closed changed
      | accounts user =>
          exact .ask (StoreCall.alike_accountsOf user) fun _ _ h => .succeed (.accounts h)
      | account user id =>
          exact .ask (StoreCall.alike_ownedAccount user id) fun _ _ h => .succeed (.account h)
      | transactions filter => exact absurd rfl (hother filter)
      | transaction id =>
          exact .ask (StoreCall.alike_transaction id) fun _ _ h => .succeed (.transaction h)

theorem outcome_alike (hnow : R now now') (hr : r.Alike R r')
    (hsizes : ∀ requested, config.pageLimit requested = config'.pageLimit requested)
    (ht : t.Alike R t') :
    (r.outcome config now t).1.Alike R (r'.outcome config' now' t').1 ∧
      Agree (Reply.Alike R) (r.outcome config now t).2 (r'.outcome config' now' t').2 := by
  obtain ⟨-, htables, hresult⟩ :=
    alike_program hnow hr hsizes _ _ _ _ UnitOfWork.alike_closed ht
  exact ⟨htables, hresult⟩

end Request

end Ledger
