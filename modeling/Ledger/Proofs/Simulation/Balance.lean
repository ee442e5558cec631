import Ledger.Proofs.Simulation.Audit
import Ledger.Proofs.Simulation.Plan
import Ledger.Proofs.Tables.Authority

/-!
The books of a simulation. A planned transfer is made or refused for want of money, and either way
the balances add up to what was paid in, so that the audit finds nothing wrong.
-/

namespace Ledger

variable {config : Config} {now : Timestamp} {t t' : Tables} {q : TransferRequest} {reply : Reply}
  {row row' : Account} {entries : List Transaction}

theorem Account.Change.status_eq (h : row.Change now t (.transfer q) row' entries) :
    row'.status = row.status := by
  cases h with
  | untouched | debited | credited => rfl

theorem Effect.ids_eq (h : Effect config now t (.transfer q) reply t') :
    t'.accounts.map (·.id) = t.accounts.map (·.id) := by
  cases h with
  | transferred => exact (Tables.ids_update _ _ _).trans (Tables.ids_update _ _ _)

theorem add_le_sum {l : List ℚ} {i j : ℕ} {a b : ℚ} (h : ∀ x ∈ l, 0 ≤ x) (hne : i ≠ j)
    (ha : l[i]? = some a) (hb : l[j]? = some b) : a + b ≤ l.sum := by
  induction l generalizing i j with
  | nil => cases ha
  | cons x rest ih =>
      obtain ⟨hx, hrest⟩ := List.forall_mem_cons.mp h
      rw [List.sum_cons]
      cases i with
      | zero =>
          cases j with
          | zero => exact absurd rfl hne
          | succ j =>
              obtain rfl := Option.some.inj ha
              exact add_le_add_right (List.single_le_sum hrest b (List.mem_of_getElem? hb)) x
      | succ i =>
          cases j with
          | zero =>
              obtain rfl := Option.some.inj hb
              rw [add_comm]
              exact add_le_add_right (List.single_le_sum hrest a (List.mem_of_getElem? ha)) x
          | succ j =>
              have hle := ih hrest (fun heq => hne (congrArg Nat.succ heq)) ha hb
              linarith

namespace Simulation

/-- A transfer was made, or refused for want of money. -/
def Settled (outcome : Except LedgerError Reply) : Prop :=
  ∀ e, outcome = .error e → e.kind = .insufficientFunds

/-- The accounts of a simulation, with as much money as was paid in. -/
structure Balanced (sim : Simulation) (t : Tables) : Prop extends Opened sim.accounts t where
  total : t.total currency = sim.initialBalance.value * sim.accounts

variable {sim : Simulation}

theorem Funded.balanced (h : sim.Funded sim.accounts t) : sim.Balanced t :=
  ⟨h.toOpened, h.total⟩

namespace Balanced

theorem nonneg (h : sim.Balanced t) (hrow : row ∈ t.accounts) : 0 ≤ row.balance.value :=
  (h.wellFormed.accounts row hrow).nonneg

theorem sum_eq (h : sim.Balanced t) :
    (t.accounts.map (·.balance.value)).sum = sim.initialBalance.value * sim.accounts := by
  rw [← h.toOpened.total, h.total]

theorem room (h : sim.Balanced t) (hsim : sim.Payable) {i j : ℕ} {source destination : Account}
    (hne : i ≠ j) (hsource : t.accounts[i]? = some source)
    (hdestination : t.accounts[j]? = some destination) :
    (destination.balance.value + source.balance.value) * 100 < 2 ^ 96 := by
  have hle : destination.balance.value + source.balance.value ≤
      sim.initialBalance.value * sim.accounts := by
    rw [← h.sum_eq]
    apply add_le_sum _ hne.symm
    · rw [List.getElem?_map, hdestination, Option.map_some]
    · rw [List.getElem?_map, hsource, Option.map_some]
    · intro value hvalue
      obtain ⟨row, hrow, rfl⟩ := List.mem_map.mp hvalue
      exact h.nonneg hrow
  linarith [hsim.room]

theorem transferred (h : sim.Balanced t) (heffect : Effect config now t (.transfer q) reply t') :
    sim.Balanced t' := by
  have hwellFormed := heffect.wellFormed h.wellFormed
  have hids := heffect.ids_eq
  refine ⟨⟨hwellFormed, ?_, ?_⟩, ?_⟩
  · rw [← List.length_map (·.id), hids, List.length_map, h.length]
  · intro index row' hrow'
    have hid : (t.accounts.map (·.id))[index]? = some row'.id := by
      rw [← hids, List.getElem?_map, hrow', Option.map_some]
    rw [List.getElem?_map] at hid
    obtain ⟨row, hrow, hid⟩ := Option.map_eq_some_iff.mp hid
    obtain ⟨found, entries, hfound, -, hchange⟩ :=
      heffect.change h.wellFormed (h.wellFormed.find?_of_mem (List.mem_of_getElem? hrow))
    rw [hid, hwellFormed.find?_of_mem (List.mem_of_getElem? hrow'), Option.some.injEq] at hfound
    subst hfound
    obtain ⟨hnumber, howner, hcurrency, hactive⟩ := h.rows index row hrow
    have hremains := hchange.remains
    exact ⟨hremains.id.trans hnumber, hremains.user.trans howner,
      hremains.currency.trans hcurrency, hchange.status_eq.trans hactive⟩
  · rcases heffect.total_cases h.wellFormed currency with
      ⟨htotal, -⟩ | ⟨user, id, asked, amount, hdeposit, -⟩
    · rw [htotal, h.total]
    · cases hdeposit

/-- There is nothing wrong with a planned transfer, except that there may be too little money for
it. -/
theorem kind_of_refused (h : sim.Balanced t) (hsim : sim.Payable) (hq : sim.Planned q)
    {e : LedgerError} (houtcome : (Request.transfer q).outcome config now t = (t, .error e)) :
    e.kind = .insufficientFunds := by
  have hpositive := hq.positive
  have hdistinct := hq.distinct
  obtain ⟨⟨i, j, hi, hj, hne, hfrom, hto, howner, hvisible⟩, cents, -, hlt, hvalue⟩ := hq
  obtain ⟨source, hsource, from_found, hsource_user, hcurrency, from_active⟩ := h.exists_row hi
  obtain ⟨destination, hdestination, to_found, hdestination_user, hcurrency', to_active⟩ :=
    h.exists_row hj
  rw [← hfrom] at from_found
  rw [← hto] at to_found
  obtain ⟨worth, hworth⟩ : ∃ worth, Currency.scale? q.amount source.currency = some worth := by
    apply Currency.exists_scale? (n := cents)
    · rw [hvalue, hcurrency, minorUnits_currency]
      norm_num
    · rwa [Int.natAbs_natCast]
  obtain ⟨-, hpos⟩ := amount_spec hpositive hworth
  have hunmet := Request.unmet_of_outcome hpositive hdistinct from_found
    (hsource_user.trans howner.symm) to_found
    (fun hkind => hdestination_user.trans (hvisible hkind)) houtcome
  have hroom : worth.value ≤ source.balance.value →
      (destination.balance.value + worth.value) * 10 ^ Currency.minorUnits source.currency <
        2 ^ 96 := by
    intro hcovered
    have hboth := h.room hsim hne hsource hdestination
    rw [hcurrency, minorUnits_currency]
    linarith
  obtain ⟨rfl, -⟩ := hunmet.short (h.wellFormed.of_find? from_found)
    (h.wellFormed.of_find? to_found) from_active to_active (hcurrency.trans hcurrency'.symm)
    hworth hpos hroom
  rfl

theorem settle (h : sim.Balanced t) (hsim : sim.Payable) (hq : sim.Planned q) (config : Config)
    (now : Timestamp) :
    Settled ((Request.transfer q).outcome config now t).2 ∧
      sim.Balanced ((Request.transfer q).outcome config now t).1 := by
  rcases (Request.transfer q).outcome_cases config now t with
    ⟨e, -, houtcome⟩ | ⟨reply, t', houtcome, heffect⟩
  · have hkind := h.kind_of_refused hsim hq houtcome
    rw [houtcome]
    refine ⟨?_, h⟩
    rintro e' ⟨⟩
    exact hkind
  · rw [houtcome]
    refine ⟨?_, h.transferred heffect⟩
    rintro e ⟨⟩

theorem worthOf_eq (h : sim.Balanced t) :
    worthOf t.accounts = sim.initialBalance.value * t.accounts.length := by
  rw [h.length, ← h.sum_eq]
  rfl

theorem addsUp (h : sim.Balanced t) (hsim : sim.Payable) :
    Decimal.AddsUp (t.accounts.map (·.balance)) := by
  apply Decimal.addsUp_of_sum_lt (s := 2)
  · intro balance hbalance
    obtain ⟨row, hrow, rfl⟩ := List.mem_map.mp hbalance
    refine ⟨?_, h.nonneg hrow⟩
    rw [(h.wellFormed.accounts row hrow).places, h.currency_of_mem hrow, minorUnits_currency]
  · norm_num
  · have hsum : ((t.accounts.map (·.balance)).map Decimal.value).sum =
        sim.initialBalance.value * sim.accounts := by
      rw [List.map_map, ← h.sum_eq]
      rfl
    rw [hsum]
    linarith [hsim.room]

theorem audit_ok (h : sim.Balanced t) (hsim : sim.Payable) :
    ∃ total, audit sim.initialBalance t.accounts = .ok total ∧
      total.value = sim.initialBalance.value * sim.accounts := by
  obtain ⟨cents, hpos, hvalue, hlt⟩ := hsim.exists_cents
  have hmany : t.accounts.length < 2 ^ 96 := by
    rw [h.length]
    exact lt_of_le_of_lt (Nat.le_mul_of_pos_left _ hpos) hlt
  have hproduct : Decimal.Representable (sim.initialBalance.value * t.accounts.length) := by
    have hunits : sim.initialBalance.value * t.accounts.length =
        (cents * sim.accounts : ℕ) / 10 ^ 2 := by
      rw [h.length, hvalue]
      push_cast
      ring
    rw [hunits]
    exact Decimal.representable_div hlt (by norm_num)
  obtain ⟨total, expected, htotal, haudit⟩ :=
    exists_audit_eq hmany (h.addsUp hsim) hproduct fun row => h.nonneg
  rw [if_pos h.worthOf_eq] at haudit
  exact ⟨total, haudit, by rw [htotal, h.worthOf_eq, h.length]⟩

end Balanced

end Simulation

end Ledger
