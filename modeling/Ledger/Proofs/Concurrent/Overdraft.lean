import Ledger.Proofs.Concurrent.Paying
import Ledger.Proofs.Concurrent.Termination
import Ledger.Proofs.Tables.Books
import Mathlib.Algebra.BigOperators.Ring.Finset

namespace Ledger

/-- What an account holds; nothing if it is not there. -/
def Tables.balanceOf (t : Tables) (id : AccountId) : ℚ :=
  (t.find? id).elim 0 (·.balance.value)

theorem Tables.balanceOf_of_find? {t : Tables} {id : AccountId} {row : Account}
    (h : t.find? id = some row) : t.balanceOf id = row.balance.value := by
  rw [balanceOf, h]
  rfl

namespace Concurrent

variable {config : Config} {before w : World} {actions : List Action} {source : Account}
  {amount : ℚ} {requests : List TransferRequest} {new : List Call} {c : Call}

/-- Whether a call has returned without an error. -/
def Call.hasSucceeded (c : Call) : Bool :=
  match c.stage with
  | .returned (.ok _) => true
  | _ => false

theorem countP_isInvocation (actions : List Action) :
    actions.countP Action.isInvocation = (actions.filterMap Action.request?).length := by
  rw [List.length_filterMap_eq_countP]
  apply List.countP_congr
  rintro (r | ⟨k, m⟩) _ <;> simp [Action.isInvocation, Action.request?]

theorem World.not_advances (h : ∀ c ∈ w.calls, c.stage.isOver = true) (k : CallId) :
    ¬w.Advances config k := by
  rintro ⟨m, w', -, hstep⟩
  obtain ⟨c, store, stage, hcall, hmove, -⟩ := World.step_move hstep
  rw [step_of_isOver (h c (List.mem_of_getElem? hcall))] at hmove
  cases hmove

/-- The end of payments of which so many could be made: these have returned, and all others were
refused for want of money; the source has paid for them, the destinations have what it has paid, and
each of them is in the log. -/
structure PaidOut (before after : World) (source : Account) (amount : ℚ)
    (requests : List TransferRequest) (new : List Call) (total : ℕ) : Prop where
  calls : after.calls = before.calls ++ new
  invoked : new.map Call.request = requests.map .transfer
  succeeded : new.countP Call.hasSucceeded = total
  refused : ∀ c ∈ new, c.hasSucceeded = false → ∃ balance asked,
    c.stage = .returned (.error (.insufficientFunds source.id balance asked))
  debited : after.store.tables.balanceOf source.id = source.balance.value - total * amount
  credited : ∑ id ∈ (requests.map (·.destination)).toFinset,
    (after.store.tables.balanceOf id - before.store.tables.balanceOf id) = total * amount
  log : ∃ entries, after.store.tables.log = before.store.tables.log ++ entries ∧
    entries.length = total

theorem sum_countP_hasPaidTo {ids : Finset AccountId}
    (h : ∀ c ∈ new, ∃ id ∈ ids, c.request.destination? = some id) :
    ∑ id ∈ ids, new.countP (Call.hasPaidTo id) = new.countP Call.hasPaid := by
  induction new with
  | nil => simp
  | cons c rest ih =>
      obtain ⟨id, hmem, hid⟩ := h c (by simp)
      have hone : ∑ id ∈ ids, (if c.hasPaidTo id = true then 1 else 0) =
          if c.hasPaid = true then 1 else 0 := by
        rcases Bool.eq_false_or_eq_true c.hasPaid with hpaid | hunpaid
        · simp [Call.hasPaidTo, hpaid, hid, hmem]
        · simp [Call.hasPaidTo, hunpaid]
      simp only [List.countP_cons, Finset.sum_add_distrib, hone]
      rw [ih fun other hother => h other (by simp [hother])]

namespace Paying

theorem returned (h : Paying config before source amount new w)
    (hquiet : ∀ c ∈ w.calls, c.stage.isOver = true) (hc : c ∈ new) :
    ∃ result, c.stage = .returned result := by
  apply Stage.exists_returned _ (h.kept c hc)
  exact hquiet c (by rw [h.calls]; exact List.mem_append_right _ hc)

theorem hasPaid_of_returned {result : Except LedgerError Reply} (h : c.stage = .returned result) :
    c.hasPaid = c.hasSucceeded := by
  unfold Call.hasPaid Call.hasSucceeded
  rw [h]
  cases result <;> rfl

/-- When all calls are over, either all requests were paid, or the rest does not cover one more. -/
theorem countP_hasPaid (hpayments : Payments before.store.tables source amount requests)
    (h : Paying config before source amount new w) (hlength : new.length = requests.length)
    (hquiet : ∀ c ∈ w.calls, c.stage.isOver = true) :
    new.countP Call.hasPaid = min requests.length ⌊source.balance.value / amount⌋₊ := by
  have hpos := hpayments.positive
  have hcovered := (le_div_iff₀ hpos).mpr (h.paid.total_le hpayments)
  by_cases hall : ∀ c ∈ new, c.hasPaid = true
  · rw [List.countP_eq_length.mpr hall, hlength] at hcovered ⊢
    rw [min_eq_left (Nat.le_floor hcovered)]
  · obtain ⟨c, hc, hunpaid⟩ : ∃ c ∈ new, ¬c.hasPaid = true := by simpa using hall
    obtain ⟨result, hresult⟩ := h.returned hquiet hc
    cases result with
    | ok reply => exact absurd (by rw [Call.hasPaid, hresult]; rfl) hunpaid
    | error e =>
        have hshort := (h.refused c hc e (by rw [hresult]; rfl)).uncovered
        have hfloor : ⌊source.balance.value / amount⌋₊ = new.countP Call.hasPaid := by
          rw [Nat.floor_eq_iff ((Nat.cast_nonneg _).trans hcovered)]
          exact ⟨hcovered, (div_lt_iff₀ hpos).mpr hshort⟩
        rw [hfloor, min_eq_right (hlength ▸ List.countP_le_length)]

theorem paidOut (hpayments : Payments before.store.tables source amount requests)
    (h : Paying config before source amount new w)
    (hrequests : new.map Call.request = requests.map .transfer)
    (hquiet : ∀ c ∈ w.calls, c.stage.isOver = true) :
    PaidOut before w source amount requests new
      (min requests.length ⌊source.balance.value / amount⌋₊) := by
  have hlength : new.length = requests.length := by
    rw [← List.length_map Call.request, hrequests, List.length_map]
  have htotal := h.countP_hasPaid hpayments hlength hquiet
  have hpaid := h.paid
  rw [htotal] at hpaid
  refine ⟨h.calls, hrequests, ?_, ?_, ?_, ?_, hpaid.log⟩
  · rw [← htotal]
    refine List.countP_congr fun c hc => ?_
    obtain ⟨result, hresult⟩ := h.returned hquiet hc
    rw [hasPaid_of_returned hresult]
  · intro c hc hfailed
    obtain ⟨result, hresult⟩ := h.returned hquiet hc
    cases result with
    | ok reply =>
        rw [Call.hasSucceeded, hresult] at hfailed
        cases hfailed
    | error e =>
        obtain ⟨balance, asked, rfl⟩ := (h.refused c hc e (by rw [hresult]; rfl)).reason
        exact ⟨balance, asked, hresult⟩
  · obtain ⟨row, hrow, -, -, -, hbalance⟩ := hpaid.rows source.id source hpayments.source_found
    rw [if_pos rfl] at hbalance
    rw [Tables.balanceOf_of_find? hrow, hbalance]
  · have hto : ∀ c ∈ new, ∃ id ∈ (requests.map (·.destination)).toFinset,
        c.request.destination? = some id := by
      intro c hc
      have hmem : c.request ∈ requests.map Request.transfer := hrequests ▸ List.mem_map_of_mem hc
      obtain ⟨r, hr, hrequest⟩ := List.mem_map.mp hmem
      refine ⟨r.destination, List.mem_toFinset.mpr (List.mem_map_of_mem hr), ?_⟩
      rw [← hrequest]
      rfl
    have hone : ∀ id ∈ (requests.map (·.destination)).toFinset,
        w.store.tables.balanceOf id - before.store.tables.balanceOf id =
          (new.countP (Call.hasPaidTo id) : ℚ) * amount := by
      intro id hid
      obtain ⟨r, hr, rfl⟩ := List.mem_map.mp (List.mem_toFinset.mp hid)
      obtain ⟨row, hrow, hne, -⟩ := hpayments.destinations r hr
      obtain ⟨row', hrow', -, -, -, hbalance⟩ := hpaid.rows r.destination row hrow
      rw [if_neg hne] at hbalance
      rw [Tables.balanceOf_of_find? hrow, Tables.balanceOf_of_find? hrow', hbalance]
      exact add_sub_cancel_left _ _
    rw [Finset.sum_congr rfl hone, ← Finset.sum_mul, ← Nat.cast_sum, sum_countP_hasPaidTo hto,
      htotal]

end Paying

/-- However many transfers of the same amount out of one account are made at the same time, they
come to an end after thirteen steps each at the most; and when no more step can be made, as many of
them have gone through as the balance covers, and the others were refused for want of money. -/
theorem no_overdraft {after : World} (hbefore : before.Reachable config)
    (hquiet : ∀ c ∈ before.calls, c.stage.isOver = true)
    (hpayments : Payments before.store.tables source amount requests)
    (hrequests : actions.filterMap Action.request? = requests.map .transfer)
    (hactions : ∀ a ∈ actions, a.isUndisturbed = true)
    (hrun : before.run config actions = some after) :
    actions.length ≤ 13 * requests.length ∧
      ((∀ k, ¬after.Advances config k) → ∃ new,
        PaidOut before after source amount requests new
          (min requests.length ⌊source.balance.value / amount⌋₊)) := by
  have hstart : Paying config before source amount [] before :=
    .start hbefore.sound hbefore.balanced.wellFormed hquiet source amount
  obtain ⟨new, hpaying, hinvoked⟩ := hstart.run hpayments hquiet hrequests hactions hrun
  constructor
  · rw [← List.length_map Request.transfer, ← hrequests, ← countP_isInvocation]
    exact World.length_le_of_isOver hquiet hrun
  · intro hstuck
    refine ⟨new, hpaying.paidOut hpayments hinvoked fun c hc => ?_⟩
    by_contra hopen
    obtain ⟨k, hcall⟩ := List.mem_iff_getElem?.mp hc
    obtain ⟨j, -, -, -, hadvances⟩ :=
      hpaying.sound.exists_advances hcall (Bool.eq_false_of_not_eq_true hopen)
    exact hstuck j hadvances

/-- Three accounts are opened, and five dollars are paid into the first. -/
def opening : List Action :=
  ([.invoke (.openAccount 1 "savings" "usd"), .move 0 (.perform .epoch), .move 0 .finish,
      .move 0 (.announce (.ok ())), .invoke (.openAccount 2 "savings" "usd"),
      .move 1 (.perform .epoch), .move 1 .finish, .move 1 (.announce (.ok ())),
      .invoke (.openAccount 3 "savings" "usd"), .move 2 (.perform .epoch), .move 2 .finish,
      .move 2 (.announce (.ok ())), .invoke (.deposit 1 1 (.cents 500))] : List Action) ++
    (List.replicate 6 (.move 3 (.perform .epoch)) : List Action) ++
    ([.move 3 .release, .move 3 .finish, .move 3 (.announce (.ok ()))] : List Action)

/-- Two dollars three times, to two accounts. -/
def rushRequests : List TransferRequest :=
  [⟨1, 1, 2, .cents 200, "", .external⟩, ⟨1, 1, 3, .cents 200, "", .external⟩,
    ⟨1, 1, 2, .cents 200, "", .external⟩]

/-- All three calls have seen the five dollars before the first of them locks a row. -/
def rush : List Action :=
  (rushRequests.map fun r => .invoke (.transfer r) : List Action) ++
    ((List.replicate 3 [.move 4 (.perform .epoch), .move 5 (.perform .epoch),
      .move 6 (.perform .epoch)]).flatten : List Action) ++
    (List.replicate 6 (.move 4 (.perform .epoch)) : List Action) ++
    ([.move 4 .release, .move 4 .finish] : List Action) ++
    (List.replicate 6 (.move 5 (.perform .epoch)) : List Action) ++
    ([.move 5 .release, .move 4 (.announce (.ok ()))] : List Action) ++
    (List.replicate 3 (.move 6 (.perform .epoch)) : List Action) ++
    ([.move 6 .finish, .move 5 .finish, .move 5 (.announce (.ok ()))] : List Action)

theorem payments_rush {t : Tables} (haccounts : t.accounts =
      [⟨1, 1, "savings", "USD", .cents 500, .active, 1, .epoch, .epoch⟩,
        ⟨2, 2, "savings", "USD", .cents 0, .active, 0, .epoch, .epoch⟩,
        ⟨3, 3, "savings", "USD", .cents 0, .active, 0, .epoch, .epoch⟩]) :
    Payments t ⟨1, 1, "savings", "USD", .cents 500, .active, 1, .epoch, .epoch⟩ 2 rushRequests := by
  have hvalue : (Decimal.cents 200).value = 2 := by norm_num [Decimal.value_cents]
  have hempty : (Decimal.cents 0).value = 0 := by norm_num [Decimal.value_cents]
  have hplaces : Currency.minorUnits "USD" = 2 := by decide
  refine ⟨?_, rfl, by norm_num, ⟨200, by norm_num, by norm_num [hplaces]⟩, ?_, ?_, ?_⟩
  · rw [Tables.find?, haccounts]
    rfl
  · intro r hr
    simp only [rushRequests, List.mem_cons, List.not_mem_nil, or_false] at hr
    rcases hr with rfl | rfl | rfl <;> exact ⟨rfl, rfl, hvalue⟩
  · intro r hr
    simp only [rushRequests, List.mem_cons, List.not_mem_nil, or_false] at hr
    rw [Tables.find?, haccounts]
    rcases hr with rfl | rfl | rfl <;>
      exact ⟨_, rfl, by decide, rfl, rfl, fun h => absurd h (by decide)⟩
  · intro r hr row hrow
    have hrow : row.balance.value = 0 := by
      rw [Tables.find?, haccounts] at hrow
      simp only [rushRequests, List.mem_cons, List.not_mem_nil, or_false] at hr
      rcases hr with rfl | rfl | rfl <;> cases hrow <;> exact hempty
    rw [hrow, hplaces]
    calc _ ≤ (0 + (3 : ℚ) * 2) * 10 ^ 2 := by
          gcongr
          exact_mod_cast (min_le_left _ _).trans List.countP_le_length
      _ < 2 ^ 96 := by norm_num

/-- Three calls want two dollars each out of five, and one of them is refused. -/
theorem no_overdraft_rush :
    ∃ before after source new, (World.start {}).run .standard opening = some before ∧
      before.store.tables.find? 1 = some source ∧ source.balance.value = 5 ∧
      before.run .standard rush = some after ∧
      PaidOut before after source 2 rushRequests new 2 := by
  have hopening : ((World.start {}).run .standard opening).map
      (fun w => (w.store.tables.accounts, w.calls.all (·.stage.isOver))) =
      some ([⟨1, 1, "savings", "USD", .cents 500, .active, 1, .epoch, .epoch⟩,
        ⟨2, 2, "savings", "USD", .cents 0, .active, 0, .epoch, .epoch⟩,
        ⟨3, 3, "savings", "USD", .cents 0, .active, 0, .epoch, .epoch⟩], true) := by
    decide +kernel
  have hrush : ((World.start {}).run .standard (opening ++ rush)).map
      (fun w => w.calls.all (·.stage.isOver)) = some true := by
    decide +kernel
  obtain ⟨before, hbefore, hopened⟩ := Option.map_eq_some_iff.mp hopening
  obtain ⟨haccounts, hquiet⟩ := Prod.mk.inj hopened
  obtain ⟨after, hafter, hover⟩ := Option.map_eq_some_iff.mp hrush
  rw [World.run_append, hbefore, Option.bind_some] at hafter
  have hpayments := payments_rush haccounts
  obtain ⟨-, hends⟩ := no_overdraft ⟨opening, hbefore⟩ (by simpa using hquiet) hpayments rfl
    (by decide) hafter
  obtain ⟨new, hpaidOut⟩ := hends (World.not_advances (by simpa using hover))
  have hbalance : (Decimal.cents 500).value = 5 := by norm_num [Decimal.value_cents]
  have htotal : min rushRequests.length ⌊(Decimal.cents 500).value / 2⌋₊ = 2 := by
    have hfloor : ⌊(5 : ℚ) / 2⌋₊ = 2 :=
      (Nat.floor_eq_iff (by norm_num)).mpr ⟨by norm_num, by norm_num⟩
    rw [hbalance, hfloor]
    rfl
  refine ⟨before, after, _, new, hbefore, hpayments.source_found, hbalance, hafter, ?_⟩
  rw [htotal] at hpaidOut
  exact hpaidOut

end Concurrent

end Ledger
