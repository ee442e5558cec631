import Ledger.Proofs.Decimal.Fits
import Ledger.Proofs.Tables.WellFormed
import Mathlib.Data.Rat.Floor

/-!
Transfers of the same amount out of one account, one after another. As many go through as the
balance has room for, and the others are refused for want of money; nothing else can go wrong.
-/

namespace Ledger

/-- Requests to move an amount that the currency can express out of an active account of the
caller's, each to another active account of the currency that the caller can see, where there is
room for whatever can be credited. -/
structure Payments (t : Tables) (source : Account) (amount : ℚ) (requests : List TransferRequest) :
    Prop where
  source_found : t.find? source.id = some source
  source_active : source.status = .active
  positive : 0 < amount
  representable : ∃ units : ℕ, units < 2 ^ 96 ∧
    amount = units / 10 ^ Currency.minorUnits source.currency
  asked : ∀ r ∈ requests, r.user = source.user ∧ r.source = source.id ∧ r.amount.value = amount
  destinations : ∀ r ∈ requests, ∃ row, t.find? r.destination = some row ∧
    r.destination ≠ source.id ∧ row.status = .active ∧ row.currency = source.currency ∧
    (r.kind = .internal → row.user = source.user)
  room : ∀ r ∈ requests, ∀ row, t.find? r.destination = some row →
    (row.balance.value +
        min (requests.countP (·.destination = r.destination))
          ⌊source.balance.value / amount⌋₊ * amount) *
      10 ^ Currency.minorUnits source.currency < 2 ^ 96

/-- What so many of the payments have done to the tables, of which so many were to each account. -/
structure Paid (before : Tables) (source : Account) (amount : ℚ) (total : ℕ)
    (paid : AccountId → ℕ) (t : Tables) : Prop where
  wellFormed : t.WellFormed
  rows : ∀ id row, before.find? id = some row → ∃ row', t.find? id = some row' ∧
    row'.user = row.user ∧ row'.currency = row.currency ∧ row'.status = row.status ∧
    row'.balance.value =
      if id = source.id then row.balance.value - total * amount
      else row.balance.value + paid id * amount
  log : ∃ entries, t.log = before.log ++ entries ∧ entries.length = total

/-- A payment was refused for want of money, and what is left after so many payments does not cover
another one. -/
structure Short (source : Account) (amount : ℚ) (total : ℕ) (e : LedgerError) : Prop where
  reason : ∃ balance asked, e = .insufficientFunds source.id balance asked
  uncovered : source.balance.value < (total + 1) * amount

theorem Short.mono {source : Account} {amount : ℚ} {total total' : ℕ} {e : LedgerError}
    (h : Short source amount total e) (hpos : 0 < amount) (hle : total ≤ total') :
    Short source amount total' e := by
  refine ⟨h.reason, h.uncovered.trans_le ?_⟩
  refine mul_le_mul_of_nonneg_right ?_ hpos.le
  exact_mod_cast Nat.succ_le_succ hle

namespace Payments

variable {t : Tables} {source : Account} {amount : ℚ} {requests : List TransferRequest}
  {r : TransferRequest} (h : Payments t source amount requests) (hr : r ∈ requests)

include h hr

theorem asked_pos : ¬r.amount ≤ 0 := by
  apply Decimal.not_le_zero_of_pos
  rw [(h.asked r hr).2.2]
  exact h.positive

theorem distinct : r.source ≠ r.destination := by
  obtain ⟨-, -, hne, -⟩ := h.destinations r hr
  rw [(h.asked r hr).2.1]
  exact hne.symm

end Payments

theorem Paid.start {before : Tables} (h : before.WellFormed) (source : Account) (amount : ℚ) :
    Paid before source amount 0 (fun _ => 0) before where
  wellFormed := h
  rows id row hrow := ⟨row, hrow, rfl, rfl, rfl, by simp⟩
  log := ⟨[], by simp, rfl⟩

theorem Request.unmet_of_outcome {config : Config} {now : Timestamp} {t : Tables}
    {r : TransferRequest} {source destination : Account} {e : LedgerError}
    (hpositive : ¬r.amount ≤ 0) (hdistinct : r.source ≠ r.destination)
    (hsource : t.find? r.source = some source) (howner : source.user = r.user)
    (hdestination : t.find? r.destination = some destination)
    (hvisible : r.kind = .internal → destination.user = r.user)
    (h : (Request.transfer r).outcome config now t = (t, .error e)) :
    Work.Unmet r source destination e := by
  rw [outcome, program_transfer, if_neg hpositive, if_neg hdistinct, exec_reply] at h
  rcases Work.exec_transfer (t := t) hdistinct with ⟨hmissing, -⟩ | ⟨source', hsource', -,
    ⟨hmissing, -⟩ | ⟨destination', hdestination', -, ⟨e', hreason, hexec⟩ |
      ⟨amount, debited, credited, -, -, -, -, -, -, -, hexec⟩⟩⟩
  · exact absurd ⟨source, hsource, howner⟩ hmissing
  · exact absurd ⟨destination, hdestination, hvisible⟩ hmissing
  · rw [hsource] at hsource'
    rw [hdestination] at hdestination'
    rw [hexec] at h
    cases hsource'
    cases hdestination'
    cases h
    exact hreason
  · rw [hexec] at h
    cases congrArg Prod.snd h

theorem Work.Unmet.short {r : TransferRequest} {source destination : Account} {worth : Decimal}
    {e : LedgerError} (hsource : source.WellFormed) (hdestination : destination.WellFormed)
    (from_active : source.status = .active) (to_active : destination.status = .active)
    (hcurrency : source.currency = destination.currency)
    (hworth : Currency.scale? r.amount source.currency = some worth) (hpos : 0 < worth.value)
    (hroom : worth.value ≤ source.balance.value →
      (destination.balance.value + worth.value) * 10 ^ Currency.minorUnits source.currency < 2 ^ 96)
    (h : Unmet r source destination e) :
    e = .insufficientFunds source.id source.balance worth ∧ source.balance.value < worth.value := by
  have hplaces : worth.scale = Currency.minorUnits source.currency :=
    (Currency.scale?_spec hworth).1
  cases h with
  | currencies hother => exact absurd hcurrency hother
  | places _ hunscaled =>
      rw [hworth] at hunscaled
      cases hunscaled
  | immovable _ hscaled hreason =>
      rw [hworth, Option.some.injEq] at hscaled
      subst hscaled
      cases hreason with
      | source_closed hclosed => exact absurd from_active hclosed
      | short _ huncovered => exact ⟨rfl, Decimal.lt_iff_value.mp huncovered⟩
      | destination_closed _ _ hclosed => exact absurd to_active hclosed
      | underflow _ _ hcovered hnone =>
          obtain ⟨debited, hdebited⟩ :=
            Currency.exists_debit (hplaces.trans hsource.places.symm) hpos hcovered
          rw [hnone] at hdebited
          cases hdebited
      | overflow _ _ hcovered _ hnone =>
          rw [Decimal.lt_iff_value, not_lt] at hcovered
          have hto : destination.balance.scale = Currency.minorUnits source.currency := by
            rw [hdestination.places, hcurrency]
          have hlt := Decimal.natAbs_add_lt hto hplaces
            (add_nonneg hdestination.nonneg hpos.le) (hroom hcovered)
          obtain ⟨credited, hcredited⟩ :=
            Currency.exists_credit? (hplaces.trans hto.symm) hlt
          rw [hnone] at hcredited
          cases hcredited

namespace Paid

variable {config : Config} {now : Timestamp} {before t t' : Tables} {source : Account} {amount : ℚ}
  {requests : List TransferRequest} {r : TransferRequest} {total : ℕ} {paid : AccountId → ℕ}

theorem total_le (hpayments : Payments before source amount requests)
    (h : Paid before source amount total paid t) : total * amount ≤ source.balance.value := by
  obtain ⟨row, hrow, -, -, -, hbalance⟩ := h.rows source.id source hpayments.source_found
  have hnonneg := (h.wellFormed.of_find? hrow).nonneg
  rw [hbalance, if_pos rfl] at hnonneg
  linarith

end Paid

/-- The rows of a payment that is to be made, after so many others. -/
structure Due (before : Tables) (source : Account) (amount : ℚ) (total : ℕ)
    (paid : AccountId → ℕ) (t : Tables) (r : TransferRequest) (debit credit : Account)
    (worth : Decimal) : Prop where
  positive : ¬r.amount ≤ 0
  distinct : r.source ≠ r.destination
  to_source : r.source = source.id
  from_found : t.find? r.source = some debit
  owned : debit.user = r.user
  from_active : debit.status = .active
  from_currency : debit.currency = source.currency
  from_balance : debit.balance.value = source.balance.value - total * amount
  to_found : t.find? r.destination = some credit
  visible : r.kind = .internal → credit.user = r.user
  to_active : credit.status = .active
  to_currency : credit.currency = source.currency
  to_balance : ∃ row, before.find? r.destination = some row ∧
    credit.balance.value = row.balance.value + paid r.destination * amount
  scaled : Currency.scale? r.amount source.currency = some worth
  places : worth.scale = Currency.minorUnits source.currency
  value : worth.value = amount

section Due

variable {config : Config} {now : Timestamp} {before t t' : Tables} {source debit credit : Account}
  {amount : ℚ} {requests : List TransferRequest} {r : TransferRequest} {total : ℕ}
  {paid : AccountId → ℕ} {worth : Decimal} {e : LedgerError} {reply : Reply}

theorem Paid.exists_due (hpayments : Payments before source amount requests)
    (h : Paid before source amount total paid t) (hr : r ∈ requests) :
    ∃ debit credit worth, Due before source amount total paid t r debit credit worth := by
  obtain ⟨huser, hsource, hvalue⟩ := hpayments.asked r hr
  obtain ⟨row, hrow, hdistinct, hactive, hcurrency, hvisible⟩ := hpayments.destinations r hr
  obtain ⟨debit, hdebit, hdebit_user, hdebit_currency, hdebit_status, hdebit_balance⟩ :=
    h.rows source.id source hpayments.source_found
  obtain ⟨credit, hcredit, hcredit_user, hcredit_currency, hcredit_status, hcredit_balance⟩ :=
    h.rows r.destination row hrow
  rw [if_pos rfl] at hdebit_balance
  rw [if_neg hdistinct] at hcredit_balance
  obtain ⟨units, hunits, hamount⟩ := hpayments.representable
  have hasked : r.amount.value = ((units : ℤ) : ℚ) / 10 ^ Currency.minorUnits source.currency := by
    rw [hvalue, hamount, Int.cast_natCast]
  obtain ⟨worth, hscaled⟩ := Currency.exists_scale? hasked (by simpa using hunits)
  obtain ⟨hplaces, hsame⟩ := Currency.scale?_spec hscaled
  refine ⟨debit, credit, worth, hpayments.asked_pos hr, hpayments.distinct hr, hsource,
    hsource ▸ hdebit, hdebit_user.trans huser.symm,
    hdebit_status.trans hpayments.source_active, hdebit_currency, hdebit_balance, hcredit, ?_,
    hcredit_status.trans hactive, hcredit_currency.trans hcurrency,
    ⟨row, hrow, hcredit_balance⟩, hscaled, hplaces, hsame.trans hvalue⟩
  intro hkind
  rw [hcredit_user, hvisible hkind, huser]

namespace Due

variable (h : Due before source amount total paid t r debit credit worth)

include h

theorem short_of_unmet (ht : t.WellFormed) (hpos : 0 < amount)
    (hroom : (total + 1) * amount ≤ source.balance.value →
      (credit.balance.value + amount) * 10 ^ Currency.minorUnits source.currency < 2 ^ 96)
    (hunmet : Work.Unmet r debit credit e) : Short source amount total e := by
  have hcovers : amount ≤ debit.balance.value → (total + 1) * amount ≤ source.balance.value := by
    intro hcovered
    rw [h.from_balance] at hcovered
    linarith
  obtain ⟨rfl, huncovered⟩ := hunmet.short (ht.of_find? h.from_found) (ht.of_find? h.to_found)
    h.from_active h.to_active (h.from_currency.trans h.to_currency.symm)
    (by rw [h.from_currency, h.scaled]) (by rwa [h.value])
    (by rw [h.value, h.from_currency]; exact fun hcovered => hroom (hcovers hcovered))
  rw [Tables.id_of_find? h.from_found, h.to_source]
  refine ⟨⟨debit.balance, worth, rfl⟩, ?_⟩
  rw [h.value, h.from_balance] at huncovered
  linarith

theorem step (hpaid : Paid before source amount total paid t)
    (heffect : Effect config now t (.transfer r) reply t') :
    Paid before source amount (total + 1)
      (Function.update paid r.destination (paid r.destination + 1)) t' := by
  have ht := hpaid.wellFormed
  have hwellFormed := heffect.wellFormed ht
  have hdebit_id : debit.id = source.id := (Tables.id_of_find? h.from_found).trans h.to_source
  have hcredit_id : credit.id = r.destination := Tables.id_of_find? h.to_found
  have hne : r.destination ≠ source.id := fun hsame => h.distinct (h.to_source.trans hsame.symm)
  cases heffect with
  | @transferred _ source' destination' _ debited credited _ _ hsource _ hdestination _ hcurrency
      hscaled _ _ hcovered hdebit hcredit =>
      rw [h.from_found] at hsource
      rw [h.to_found] at hdestination
      cases hsource
      cases hdestination
      obtain ⟨-, -, hless, hmore⟩ := Effect.exchanged (ht.of_find? h.from_found)
        (ht.of_find? h.to_found) h.positive hcurrency hscaled h.from_active h.to_active hcovered
        hdebit hcredit
      rw [h.from_currency, h.scaled] at hscaled
      cases hscaled
      rw [h.value] at hless hmore
      have hself := Effect.find?_self h.from_found
      have hself' := Effect.find?_destination now debited h.distinct h.from_found h.to_found
      refine ⟨hwellFormed, ?_, ?_⟩
      · intro id row hrow
        obtain ⟨row', hrow', huser, hsame, hstatus, hbalance⟩ := hpaid.rows id row hrow
        rw [Tables.find?_enter, Tables.find?_update now { credit with balance := credited } hself',
          Tables.find?_update now { debit with balance := debited } hself]
        rcases Decidable.em (id = r.destination) with rfl | hid
        · rw [h.to_found] at hrow'
          cases hrow'
          rw [if_neg hne] at hbalance
          refine ⟨_, if_pos hcredit_id.symm, huser, hsame, hstatus, ?_⟩
          rw [if_neg hne, Function.update_self]
          show credited.value = _
          rw [hmore, hbalance]
          push_cast
          ring
        · rw [if_neg (fun heq => hid (heq.trans hcredit_id))]
          rcases Decidable.em (id = source.id) with rfl | hid'
          · rw [← h.to_source, h.from_found] at hrow'
            cases hrow'
            rw [if_pos rfl] at hbalance
            refine ⟨_, if_pos hdebit_id.symm, huser, hsame, hstatus, ?_⟩
            rw [if_pos rfl]
            show debited.value = _
            rw [hless, hbalance]
            push_cast
            ring
          · rw [if_neg hid'] at hbalance
            refine ⟨row', ?_, huser, hsame, hstatus, ?_⟩
            · rw [if_neg (fun heq => hid' (heq.trans hdebit_id)), hrow']
            · rw [if_neg hid', Function.update_of_ne hid, hbalance]
      · obtain ⟨entries, hlog, hlength⟩ := hpaid.log
        refine ⟨entries ++ [t.newEntry now (r.entry worth)], ?_, ?_⟩
        · rw [Tables.log_enter, ← List.append_assoc, ← hlog]
          rfl
        · rw [List.length_append, hlength, List.length_singleton]

end Due

/-- The next payment goes through if what is left covers it, and else it is refused for that. -/
theorem Paid.settle (config : Config) (now : Timestamp)
    (hpayments : Payments before source amount requests)
    (h : Paid before source amount total paid t) (hr : r ∈ requests)
    (hcount : paid r.destination + 1 ≤ requests.countP (·.destination = r.destination))
    (hle : paid r.destination ≤ total) :
    (∃ e, (Request.transfer r).outcome config now t = (t, .error e) ∧
        Short source amount total e) ∨
      ∃ reply t', (Request.transfer r).outcome config now t = (t', .ok reply) ∧
        Paid before source amount (total + 1)
          (Function.update paid r.destination (paid r.destination + 1)) t' := by
  obtain ⟨debit, credit, worth, hdue⟩ := h.exists_due hpayments hr
  rcases Request.outcome_transfer r with ⟨e, houtcome⟩ | ⟨reply, t', houtcome, heffect⟩
  · left
    have hunmet := Request.unmet_of_outcome hdue.positive hdue.distinct hdue.from_found hdue.owned
      hdue.to_found hdue.visible houtcome
    have hroom : (total + 1) * amount ≤ source.balance.value →
        (credit.balance.value + amount) * 10 ^ Currency.minorUnits source.currency < 2 ^ 96 := by
      intro hcovers
      obtain ⟨row, hrow, hbalance⟩ := hdue.to_balance
      have hfloor : total + 1 ≤ ⌊source.balance.value / amount⌋₊ := by
        refine Nat.le_floor ?_
        rw [le_div_iff₀ hpayments.positive]
        exact_mod_cast hcovers
      have hmore : paid r.destination + 1 ≤
          min (requests.countP (·.destination = r.destination)) ⌊source.balance.value / amount⌋₊ :=
        le_min hcount (by omega)
      refine lt_of_le_of_lt ?_ (hpayments.room r hr row hrow)
      refine mul_le_mul_of_nonneg_right ?_ (Decimal.pow_ten_pos _).le
      have hmore : ((paid r.destination + 1 : ℕ) : ℚ) * amount ≤ _ * amount :=
        mul_le_mul_of_nonneg_right (Nat.cast_le.mpr hmore) hpayments.positive.le
      rw [hbalance]
      push_cast at hmore ⊢
      linarith
    exact ⟨e, houtcome, hdue.short_of_unmet h.wellFormed hpayments.positive hroom hunmet⟩
  · right
    exact ⟨reply, t', houtcome, hdue.step h heffect⟩

end Due

end Ledger
