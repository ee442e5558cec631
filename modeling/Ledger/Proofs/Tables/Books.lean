import Ledger.Proofs.Tables.WellFormed
import Mathlib.Algebra.BigOperators.Group.List.Basic

namespace Ledger

/-- The sum of a quantity over the members of a list that satisfy a condition. -/
def sumOf {α : Type} (l : List α) (p : α → Prop) [DecidablePred p] (f : α → ℚ) : ℚ :=
  ((l.filter p).map f).sum

section SumOf

variable {α : Type} {l l' : List α} {p q : α → Prop} [DecidablePred p] [DecidablePred q]
  {f : α → ℚ} {a : α}

theorem sumOf_nil : sumOf [] p f = 0 :=
  rfl

theorem sumOf_cons : sumOf (a :: l) p f = (if p a then f a else 0) + sumOf l p f := by
  unfold sumOf
  rw [List.filter_cons]
  split
  · rename_i h
    rw [if_pos (of_decide_eq_true h), List.map_cons, List.sum_cons]
  · rename_i h
    rw [if_neg (fun hp => h (decide_eq_true hp)), zero_add]

theorem sumOf_concat : sumOf (l ++ [a]) p f = sumOf l p f + if p a then f a else 0 := by
  induction l with
  | nil => rw [List.nil_append, sumOf_cons, sumOf_nil, add_comm]
  | cons b l ih => rw [List.cons_append, sumOf_cons, ih, sumOf_cons, add_assoc]

theorem sumOf_congr (h : ∀ a ∈ l, p a ↔ q a) : sumOf l p f = sumOf l q f := by
  have hfilter : l.filter p = l.filter q :=
    List.filter_congr fun a ha => decide_eq_decide.mpr (h a ha)
  rw [sumOf, hfilter, sumOf]

theorem sumOf_eq_zero (h : ∀ a ∈ l, ¬p a) : sumOf l p f = 0 := by
  have hnil : l.filter p = [] :=
    List.filter_eq_nil_iff.mpr fun a ha hp => h a ha (of_decide_eq_true hp)
  rw [sumOf, hnil]
  rfl

end SumOf

namespace Tables

/-- The sum of the amounts that the log moves to an account. -/
def credits (t : Tables) (id : AccountId) : ℚ :=
  sumOf t.log (fun entry => entry.destination = id) fun entry => entry.amount.value

/-- The sum of the amounts that the log moves from an account. -/
def debits (t : Tables) (id : AccountId) : ℚ :=
  sumOf t.log (fun entry => entry.source = some id) fun entry => entry.amount.value

/-- The sum of the balances in a currency. -/
def total (t : Tables) (code : String) : ℚ :=
  sumOf t.accounts (fun row => row.currency = code) fun row => row.balance.value

/-- The currency of an account. -/
def currency? (t : Tables) (id : AccountId) : Option String :=
  (t.find? id).map (·.currency)

/-- The sum of the deposits into accounts of a currency. -/
def deposits (t : Tables) (code : String) : ℚ :=
  sumOf t.log (fun entry => entry.kind = .deposit ∧ t.currency? entry.destination = some code)
    fun entry => entry.amount.value

/-- Every balance is what the log says. -/
def Reconciled (t : Tables) : Prop :=
  ∀ row ∈ t.accounts, row.balance.value = t.credits row.id - t.debits row.id

variable {t t' : Tables} {now : Timestamp} {row old other : Account} {new : NewTransaction}
  {code : String} {id : AccountId}

theorem mem_update (h : other ∈ (t.update now row).accounts) :
    other = stamp now row ∨ other ∈ t.accounts ∧ other.id ≠ row.id := by
  obtain ⟨before, hbefore, rfl⟩ := List.mem_map.mp h
  split
  · exact .inl rfl
  · rename_i hid
    exact .inr ⟨hbefore, hid⟩

@[simp] theorem credits_update (t : Tables) (now : Timestamp) (row : Account) (id : AccountId) :
    (t.update now row).credits id = t.credits id :=
  rfl

@[simp] theorem debits_update (t : Tables) (now : Timestamp) (row : Account) (id : AccountId) :
    (t.update now row).debits id = t.debits id :=
  rfl

theorem credits_enter (t : Tables) (now : Timestamp) (new : NewTransaction) (id : AccountId) :
    (t.enter now new).credits id =
      t.credits id + if new.destination = id then new.amount.value else 0 := by
  rw [credits, log_enter, sumOf_concat]
  rfl

theorem debits_enter (t : Tables) (now : Timestamp) (new : NewTransaction) (id : AccountId) :
    (t.enter now new).debits id =
      t.debits id + if new.source = some id then new.amount.value else 0 := by
  rw [debits, log_enter, sumOf_concat]
  rfl

theorem sumOf_replace {p : Account → Prop} [DecidablePred p] {f : Account → ℚ}
    (accounts : List Account) (hids : (accounts.map (·.id)).Pairwise (· < ·))
    (hfind : accounts.find? (·.id = row.id) = some old) :
    sumOf (accounts.map fun other => if other.id = row.id then row else other) p f =
      sumOf accounts p f - (if p old then f old else 0) + if p row then f row else 0 := by
  induction accounts with
  | nil => cases hfind
  | cons first rest ih =>
      rw [List.map_cons, List.pairwise_cons] at hids
      rw [List.find?_cons] at hfind
      rw [List.map_cons, sumOf_cons, sumOf_cons]
      rcases Decidable.em (first.id = row.id) with hid | hid
      · rw [decide_eq_true hid] at hfind
        cases hfind
        have hrest : (rest.map fun other => if other.id = row.id then row else other) = rest := by
          refine (List.map_congr_left ?_).trans (List.map_id rest)
          intro other hother
          have hlt := hids.1 other.id (List.mem_map_of_mem hother)
          rw [if_neg (fun h => Nat.ne_of_gt hlt (h.trans hid.symm)), id]
        rw [if_pos hid, hrest]
        ring
      · rw [decide_eq_false hid] at hfind
        rw [if_neg hid, ih hids.2 hfind]
        ring

theorem total_update (row : Account) (ht : t.WellFormed) (hfind : t.find? row.id = some old)
    (hcurrency : row.currency = old.currency) (code : String) :
    (t.update now row).total code =
      t.total code + if old.currency = code then row.balance.value - old.balance.value else 0 := by
  have hsum : (t.update now row).total code = _ :=
    sumOf_replace t.accounts ht.ascending (show t.find? (stamp now row).id = some old from hfind)
  rw [hsum, total]
  simp only [stamp, hcurrency]
  split <;> ring

theorem total_insert (t : Tables) (now : Timestamp) {user : UserId} {new : NewAccount}
    (hnew : new.Accepted user) (code : String) : (t.insert now new).total code = t.total code := by
  have hvalue : (t.newRow now new).balance.value = 0 := Decimal.value_eq_zero.mpr hnew.empty
  rw [total, insert, sumOf_concat, hvalue, ite_self, add_zero]
  rfl

theorem total_enter (t : Tables) (now : Timestamp) (new : NewTransaction) (code : String) :
    (t.enter now new).total code = t.total code :=
  rfl

theorem currency?_persists (hpersists : t.Persists t') (hrow : t.find? id = some row) :
    t'.currency? id = t.currency? id := by
  obtain ⟨row', hrow', -, hcurrency⟩ := hpersists id row hrow
  rw [currency?, currency?, hrow, hrow', Option.map_some, Option.map_some, hcurrency]

theorem deposits_persists (ht : t.WellFormed) (hpersists : t.Persists t') (hlog : t'.log = t.log)
    (code : String) : t'.deposits code = t.deposits code := by
  rw [deposits, deposits, hlog]
  refine sumOf_congr ?_
  intro entry hentry
  obtain ⟨row, hrow, -⟩ := (ht.entries entry hentry).destination
  rw [currency?_persists hpersists hrow]

theorem deposits_enter (t : Tables) (now : Timestamp) (new : NewTransaction) (code : String) :
    (t.enter now new).deposits code =
      t.deposits code +
        if new.kind = .deposit ∧ t.currency? new.destination = some code then new.amount.value
        else 0 := by
  rw [deposits, log_enter, sumOf_concat]
  rfl

theorem WellFormed.credits_nextId (ht : t.WellFormed) : t.credits t.nextId = 0 := by
  refine sumOf_eq_zero ?_
  rintro entry hentry hdestination
  obtain ⟨row, hrow, -⟩ := (ht.entries entry hentry).destination
  have hlt := ht.lt_nextId row (mem_of_find? hrow)
  rw [id_of_find? hrow, hdestination] at hlt
  exact Nat.lt_irrefl _ hlt

theorem WellFormed.debits_nextId (ht : t.WellFormed) : t.debits t.nextId = 0 := by
  refine sumOf_eq_zero ?_
  rintro entry hentry hsource
  have hfits := (ht.entries entry hentry).source
  rcases Decidable.em (entry.kind = .deposit) with hkind | hkind
  · rw [hfits.1 hkind] at hsource
    cases hsource
  · obtain ⟨id, source, -, hid, -, hfrom, -, -⟩ := hfits.2 hkind
    have hlt := ht.lt_nextId source (mem_of_find? hfrom)
    rw [hid, Option.some.injEq] at hsource
    rw [id_of_find? hfrom, hsource] at hlt
    exact Nat.lt_irrefl _ hlt

end Tables

namespace Effect

variable {config : Config} {now : Timestamp} {t t' : Tables} {r : Request} {reply : Reply}

theorem reconciled (h : Effect config now t r reply t') (ht : t.WellFormed)
    (hbooks : t.Reconciled) : t'.Reconciled := by
  cases h with
  | @opened user product currency new accepted =>
      intro row hrow
      rcases List.mem_append.mp hrow with hold | hlast
      · exact hbooks row hold
      · have hnew := NewAccount.accepted_ofInput accepted
        rw [List.mem_singleton.mp hlast]
        rw [show (t.newRow now new).balance.value = 0 from Decimal.value_eq_zero.mpr hnew.empty]
        rw [show (t.insert now new).credits (t.newRow now new).id = 0 from ht.credits_nextId]
        rw [show (t.insert now new).debits (t.newRow now new).id = 0 from ht.debits_nextId]
        rw [sub_zero]
  | @deposited user id asked amount balance row positive found _ active scaled credit =>
      obtain ⟨-, hmore⟩ := credited (ht.of_find? found) positive active scaled credit
      have hid := Tables.id_of_find? found
      have hbefore := hbooks row (Tables.mem_of_find? found)
      intro other hother
      rw [Tables.credits_enter, Tables.debits_enter, Tables.credits_update, Tables.debits_update]
      rcases Tables.mem_update hother with rfl | ⟨hmem, hne⟩
      · simp only [Tables.stamp, NewTransaction.ofDeposit, hid, if_true, reduceCtorEq, if_false]
        rw [hmore, hbefore, hid]
        ring
      · have hdestination : ¬id = other.id := fun h => hne (h.symm.trans hid.symm)
        simp only [NewTransaction.ofDeposit, hdestination, reduceCtorEq, if_false]
        rw [hbooks other hmem]
        ring
  | @transferred r source destination amount debited credited positive distinct from_found _
      to_found _ same_currency scaled from_active to_active covered debit credit =>
      obtain ⟨-, -, hless, hmore⟩ := exchanged (ht.of_find? from_found) (ht.of_find? to_found)
        positive same_currency scaled from_active to_active covered debit credit
      have hfrom := Tables.id_of_find? from_found
      have hto := Tables.id_of_find? to_found
      have hsource := hbooks source (Tables.mem_of_find? from_found)
      have hdestination := hbooks destination (Tables.mem_of_find? to_found)
      intro other hother
      rw [Tables.credits_enter, Tables.debits_enter]
      simp only [Tables.credits_update, Tables.debits_update, TransferRequest.entry,
        Option.some.injEq]
      rcases Tables.mem_update hother with rfl | ⟨hother, hne'⟩
      · simp only [Tables.stamp, hto, distinct, if_true, if_false]
        rw [hmore, hdestination, hto]
        ring
      · rcases Tables.mem_update hother with rfl | ⟨hmem, hne⟩
        · simp only [Tables.stamp, hfrom, distinct.symm, if_true, if_false]
          rw [hless, hsource, hfrom]
          ring
        · have hdebit : ¬r.source = other.id := fun h => hne (h.symm.trans hfrom.symm)
          have hcredit : ¬r.destination = other.id := fun h => hne' (h.symm.trans hto.symm)
          simp only [hdebit, hcredit, if_false]
          rw [hbooks other hmem]
          ring
  | @closed user id row found =>
      intro other hother
      rw [Tables.credits_update, Tables.debits_update]
      rcases Tables.mem_update hother with rfl | ⟨hmem, -⟩
      · exact hbooks row (Tables.mem_of_find? found)
      · exact hbooks other hmem
  | _ => exact hbooks

/-- A deposit adds the same to the sum of the balances in a currency and to the deposits into it.
Nothing else changes either of them. -/
theorem total_cases (h : Effect config now t r reply t') (ht : t.WellFormed) (code : String) :
    (t'.total code = t.total code ∧ t'.deposits code = t.deposits code) ∨
      ∃ user id asked amount, r = .deposit user id asked ∧
        t'.total code = t.total code + amount ∧ t'.deposits code = t.deposits code + amount := by
  cases h with
  | @opened user product currency new accepted =>
      refine .inl ⟨t.total_insert now (NewAccount.accepted_ofInput accepted) code, ?_⟩
      exact Tables.deposits_persists ht (Tables.persists_insert t now new) rfl code
  | @deposited user id asked amount balance row positive found _ active scaled credit =>
      obtain ⟨-, hmore⟩ := credited (ht.of_find? found) positive active scaled credit
      have hself := find?_self found
      have hpersists := t.persists_update now { row with balance } hself rfl rfl
      have hcurrency : (t.update now { row with balance }).currency? id = some row.currency := by
        rw [Tables.currency?_persists hpersists found, Tables.currency?, found]
        rfl
      refine .inr ⟨user, id, asked, if row.currency = code then amount.value else 0, rfl, ?_, ?_⟩
      · rw [Tables.total_enter, Tables.total_update { row with balance } ht hself rfl, hmore,
          add_sub_cancel_left]
      · rw [Tables.deposits_enter, Tables.deposits_persists ht hpersists rfl]
        simp only [NewTransaction.ofDeposit, hcurrency, true_and, Option.some.injEq]
  | @transferred r source destination amount debited credited positive distinct from_found _
      to_found _ same_currency scaled from_active to_active covered debit credit =>
      obtain ⟨hdebited, -, hless, hmore⟩ := exchanged (ht.of_find? from_found)
        (ht.of_find? to_found) positive same_currency scaled from_active to_active covered debit
        credit
      have hself := find?_self from_found
      have hself' := find?_destination now debited distinct from_found to_found
      have hpersists := (t.persists_update now { source with balance := debited } hself rfl
        rfl).trans (Tables.persists_update _ now { destination with balance := credited } hself'
          rfl rfl)
      refine .inl ⟨?_, ?_⟩
      · have hbetween : (t.update now { source with balance := debited }).WellFormed :=
          ht.update hdebited hself rfl rfl
        rw [Tables.total_enter,
          Tables.total_update { destination with balance := credited } hbetween hself' rfl,
          Tables.total_update { source with balance := debited } ht hself rfl, hless, hmore,
          same_currency]
        split <;> ring
      · have hkind : (r.entry amount).kind ≠ .deposit := by
          cases hkind : r.kind <;> simp [TransferRequest.entry, hkind, TransferKind.entry]
        rw [Tables.deposits_enter, Tables.deposits_persists ht hpersists rfl,
          if_neg (fun h => hkind h.1), add_zero]
  | @closed user id row found =>
      have hself := find?_self found
      have hpersists := t.persists_update now { row with status := .closed } hself rfl rfl
      refine .inl ⟨?_, Tables.deposits_persists ht hpersists rfl code⟩
      rw [Tables.total_update { row with status := .closed } ht hself rfl, sub_self, ite_self,
        add_zero]
  | _ => exact .inl ⟨rfl, rfl⟩

end Effect

/-- What the books promise: every row is as it should be, every balance is what the log says, and
the balances in a currency add up to the deposits into it. -/
structure Tables.Balanced (t : Tables) : Prop where
  wellFormed : t.WellFormed
  reconciled : t.Reconciled
  deposited : ∀ code, t.total code = t.deposits code

theorem Tables.balanced_empty : ({} : Tables).Balanced where
  wellFormed := Tables.wellFormed_empty
  reconciled _ h := nomatch h
  deposited _ := rfl

theorem Effect.balanced {config : Config} {now : Timestamp} {t t' : Tables} {r : Request}
    {reply : Reply} (h : Effect config now t r reply t') (ht : t.Balanced) : t'.Balanced := by
  refine ⟨h.wellFormed ht.wellFormed, h.reconciled ht.wellFormed ht.reconciled, ?_⟩
  intro code
  rcases h.total_cases ht.wellFormed code with
    ⟨htotal, hdeposits⟩ | ⟨-, -, -, amount, -, htotal, hdeposits⟩
  · rw [htotal, hdeposits, ht.deposited]
  · rw [htotal, hdeposits, ht.deposited]

namespace Concurrent

variable {config : Config} {w w' : World} {k : CallId} {m : Move} {c : Call}

theorem World.Reachable.balanced (h : w.Reachable config) : w.store.tables.Balanced :=
  h.induction Tables.balanced_empty fun _ _ _ _ _ ht heffect => heffect.balanced ht

theorem World.Reachable.total_step (h : w.Reachable config) (hcall : w.calls[k]? = some c)
    (hrequest : ∀ user id amount, c.request ≠ .deposit user id amount)
    (hstep : w.step config (.move k m) = some w') (code : String) :
    w'.store.tables.total code = w.store.tables.total code := by
  obtain ⟨c', stage, hcall', -, hstepped⟩ := h.sound.stepped (fun _ _ => rfl) hstep
  rw [hcall] at hcall'
  cases hcall'
  rcases hstepped.progress.tables with hsame | ⟨now, reply, heffect⟩
  · rw [hsame]
  · rcases heffect.total_cases h.balanced.wellFormed code with
      ⟨htotal, -⟩ | ⟨user, id, amount, -, hdeposit, -⟩
    · exact htotal
    · exact absurd hdeposit (hrequest user id amount)

/-- The books of every reachable state: an account's balance is what the log has moved to it less
what the log has moved from it; the balances in a currency add up to the deposits into it; and no
step of a transfer or a close changes that sum. -/
theorem books_reconcile (h : w.Reachable config) :
    (∀ row ∈ w.store.tables.accounts,
      row.balance.value = w.store.tables.credits row.id - w.store.tables.debits row.id) ∧
    (∀ code, w.store.tables.total code = w.store.tables.deposits code) ∧
    (∀ k m c w', w.calls[k]? = some c → w.step config (.move k m) = some w' →
      ((∃ r, c.request = .transfer r) ∨ ∃ user id, c.request = .close user id) →
      ∀ code, w'.store.tables.total code = w.store.tables.total code) := by
  refine ⟨h.balanced.reconciled, h.balanced.deposited, ?_⟩
  intro k m c w' hcall hstep hrequest
  refine h.total_step hcall ?_ hstep
  rintro user id amount hdeposit
  rcases hrequest with ⟨r, htransfer⟩ | ⟨user', id', hclose⟩
  · rw [hdeposit] at htransfer
    cases htransfer
  · rw [hdeposit] at hclose
    cases hclose

/-- Two accounts are opened, one of them is paid into, and it pays the other one. -/
theorem books_reconcile_transferred :
    ∃ w w', (World.start {}).run .standard
        ([.invoke (.openAccount 1 "savings" "usd"), .move 0 (.perform .epoch),
            .invoke (.openAccount 2 "savings" "usd"), .move 1 (.perform .epoch),
            .invoke (.deposit 1 1 ⟨false, 5, 0, by decide, by decide⟩)] ++
          List.replicate 6 (.move 2 (.perform .epoch)) ++
          [.move 2 .release,
            .invoke (.transfer ⟨1, 1, 2, ⟨false, 2, 0, by decide, by decide⟩, "rent", .external⟩)] ++
          List.replicate 8 (.move 3 (.perform .epoch))) = some w ∧
      w.step .standard (.move 3 (.perform .epoch)) = some w' ∧
      w'.store.tables.accounts.map (·.balance.mantissa) = [300, 200] ∧
      (∀ row ∈ w'.store.tables.accounts,
        row.balance.value = w'.store.tables.credits row.id - w'.store.tables.debits row.id) ∧
      w'.store.tables.total "USD" = w'.store.tables.deposits "USD" ∧
      w'.store.tables.total "USD" = w.store.tables.total "USD" := by
  let transfer : TransferRequest :=
    ⟨1, 1, 2, ⟨false, 2, 0, by decide, by decide⟩, "rent", .external⟩
  have hrows : ((World.start {}).run .standard
        ([.invoke (.openAccount 1 "savings" "usd"), .move 0 (.perform .epoch),
            .invoke (.openAccount 2 "savings" "usd"), .move 1 (.perform .epoch),
            .invoke (.deposit 1 1 ⟨false, 5, 0, by decide, by decide⟩)] ++
          List.replicate 6 (.move 2 (.perform .epoch)) ++
          [.move 2 .release, .invoke (.transfer transfer)] ++
          List.replicate 8 (.move 3 (.perform .epoch)))).bind (fun w =>
      (w.step .standard (.move 3 (.perform .epoch))).map fun w' =>
        (w.calls[3]?.map Call.request, w'.store.tables.accounts.map (·.balance.mantissa))) =
      some (some (.transfer transfer), [300, 200]) := by
    decide +kernel
  obtain ⟨w, hrun, hrest⟩ := Option.bind_eq_some_iff.mp hrows
  obtain ⟨w', hstep, hseen⟩ := Option.map_eq_some_iff.mp hrest
  obtain ⟨hrequest, hbalances⟩ := Prod.mk.inj hseen
  obtain ⟨c, hcall, hrequest⟩ := Option.map_eq_some_iff.mp hrequest
  have hreachable : w.Reachable .standard := ⟨_, hrun⟩
  obtain ⟨-, -, hunchanged⟩ := books_reconcile hreachable
  obtain ⟨hreconciled, hdeposited, -⟩ := books_reconcile (hreachable.step hstep)
  exact ⟨w, w', hrun, hstep, hbalances, hreconciled, hdeposited "USD",
    hunchanged 3 _ c w' hcall hstep (.inl ⟨transfer, hrequest⟩) "USD"⟩

end Concurrent

end Ledger
