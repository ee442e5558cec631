import Ledger.Proofs.Decimal.Reading
import Ledger.Proofs.Replay.Applied
import Ledger.Proofs.Service.Journal

/-!
What becomes of the amounts of an operation file. An amount is entered in the log as it is read, and
it is read as it is written unless its digits are more than a decimal number can hold.
-/

namespace Ledger

/-- The rows of an operation file, one for each record after the header. -/
def Row.readAll (bytes : List UInt8) : List (Except RecordError Row) :=
  match Csv.read bytes with
  | [] => []
  | header :: records => records.map (Row.ofRecord (readTexts 0 header).toOption)

/-- Whether a row of this verb has an amount. -/
def Verb.movesMoney : Verb → Bool
  | deposit | transfer | external => true
  | openAccount | close => false

/-- The amount that a request moves. -/
def Request.amount? : Request → Option Decimal
  | deposit _ _ amount => some amount
  | transfer q => some q.amount
  | _ => none

variable {config : Config} {now : Timestamp} {t t' : Tables} {r : Replay} {row : Row} {verb : Verb}
  {text : String} {bytes : List UInt8} {o : Operation} {k : ℕ} {clock : Nat → Timestamp}
  {items : List Item} {item : Item}

theorem Item.readAll_getElem? (h : (Row.readAll bytes)[k]? = some (.ok row)) :
    (Item.readAll bytes)[k]? =
      some (row.operation.mapError fun cause => ⟨k + 1, .row cause⟩) := by
  unfold Row.readAll at h
  unfold Item.readAll
  cases hread : Csv.read bytes with
  | nil =>
      rw [hread] at h
      cases h
  | cons header records =>
      simp only [hread, List.getElem?_map, Option.map_eq_some_iff] at h
      obtain ⟨record, hrecord, hrow⟩ := h
      simp only [List.getElem?_map, List.getElem?_zipIdx, hrecord, Option.map_some, Item.ofRecord,
        hrow, Nat.add_comm 1 k]

theorem ok_of_bind {ε α β : Type} {x : Except ε α} {f : α → Except ε β} {b : β}
    (h : (x >>= f) = .ok b) : ∃ a, x = .ok a ∧ f a = .ok b := by
  cases x with
  | error e => cases h
  | ok a => exact ⟨a, rfl, h⟩

namespace Row

theorem ofString?_of_readAmount {d : Decimal} (h : row.readAmount verb = .ok d)
    (htext : row.amount = some text) : Decimal.ofString? (trim text) = some d := by
  rw [readAmount, htext] at h
  dsimp only at h
  split at h
  · cases h
  · split at h
    · rename_i hread
      cases h
      exact hread
    · cases h

theorem readAmount_of_readTransfer {kind : TransferKind} {q : TransferRequest}
    (h : row.readTransfer verb kind = .ok q) : row.readAmount verb = .ok q.amount := by
  obtain ⟨source, -, h⟩ := ok_of_bind h
  obtain ⟨destination, -, h⟩ := ok_of_bind h
  obtain ⟨amount, hamount, h⟩ := ok_of_bind h
  cases h
  exact hamount

theorem amount?_of_transfer {kind : TransferKind}
    (h : (row.readTransfer verb kind).map Operation.transfer = .ok o) :
    ∃ d, row.readAmount verb = .ok d ∧ o.request.amount? = some d := by
  cases hread : row.readTransfer verb kind with
  | error e =>
      rw [hread] at h
      cases h
  | ok q =>
      rw [hread] at h
      cases h
      exact ⟨q.amount, readAmount_of_readTransfer hread, rfl⟩

theorem amount?_of_operation (h : row.operation = .ok o)
    (hverb : Verb.ofText? row.verb = some verb) (hmoves : verb.movesMoney = true)
    (htext : row.amount = some text) :
    ∃ d, Decimal.ofString? (trim text) = some d ∧ o.request.amount? = some d := by
  suffices hread : ∃ d, row.readAmount verb = .ok d ∧ o.request.amount? = some d by
    obtain ⟨d, hread, hamount⟩ := hread
    exact ⟨d, ofString?_of_readAmount hread htext, hamount⟩
  rw [operation, hverb] at h
  cases verb with
  | openAccount | close => cases hmoves
  | deposit =>
      obtain ⟨account, -, h⟩ := ok_of_bind h
      obtain ⟨amount, hamount, h⟩ := ok_of_bind h
      cases h
      exact ⟨amount, hamount, rfl⟩
  | transfer => exact amount?_of_transfer h
  | external => exact amount?_of_transfer h

end Row

theorem Effect.entry_of_amount? {r : Request} {reply : Reply} {d : Decimal}
    (h : Effect config now t r reply t') (hamount : r.amount? = some d) :
    ∃ entry, t'.log = t.log ++ [entry] ∧ entry.amount.value = d.value := by
  cases h with
  | deposited positive found owned active scaled credit =>
      cases hamount
      exact ⟨_, rfl, (Currency.scale?_spec scaled).2⟩
  | transferred positive distinct from_found owned to_found visible same_currency scaled =>
      cases hamount
      exact ⟨_, rfl, (Currency.scale?_spec scaled).2⟩
  | _ => cases hamount

theorem Effect.log_prefix {r : Request} {reply : Reply} (h : Effect config now t r reply t') :
    t.log <+: t'.log := by
  rcases h.log_cases with hsame | ⟨new, hnew⟩
  · exact ⟨[], (List.append_nil _).trans hsame.symm⟩
  · exact ⟨_, hnew.symm⟩

namespace Replay

/-- The replay when so many items have been carried out. -/
def reached (config : Config) (clock : Nat → Timestamp) (items : List Item) (k : Nat) : Replay :=
  (start config).go clock 0 (items.take k)

theorem Ready.step_cases (h : Ready config t r) (now : Timestamp) (item : Item) :
    ((r.step now item).applied = r.applied ∧ Ready config t (r.step now item)) ∨
      ∃ o reply t', item = .ok o ∧ Effect config now t o.request reply t' ∧
        Ready config t' (r.step now item) := by
  cases item with
  | error cause => exact .inl ⟨rfl, h.accepts, h.store, h.config⟩
  | ok o =>
      rcases o.request.outcome_cases config now t with
        ⟨e, -, houtcome⟩ | ⟨reply, t', houtcome, heffect⟩
      · obtain ⟨service, hready, hstep⟩ := h.step_error houtcome
        rw [hstep]
        exact .inl ⟨rfl, hready.accepts, hready.store, hready.config⟩
      · obtain ⟨service, hready, hstep⟩ := h.step_ok houtcome
        rw [hstep]
        exact .inr ⟨o, reply, t', rfl, heffect, hready.accepts, hready.store, hready.config⟩

theorem reached_cases (h : Ready config t (reached config clock items k)) :
    ((reached config clock items (k + 1)).applied = (reached config clock items k).applied ∧
        Ready config t (reached config clock items (k + 1))) ∨
      ∃ o reply t', items[k]? = some (.ok o) ∧ Effect config (clock k) t o.request reply t' ∧
        Ready config t' (reached config clock items (k + 1)) := by
  cases hitem : items[k]? with
  | none =>
      have hsame : reached config clock items (k + 1) = reached config clock items k := by
        rw [reached, List.take_add_one, hitem, Option.toList_none, List.append_nil, reached]
      rw [hsame]
      exact .inl ⟨rfl, h⟩
  | some item =>
      have hstep : reached config clock items (k + 1) =
          (reached config clock items k).step (clock k) item := by
        have hk := (List.getElem?_eq_some_iff.mp hitem).1
        rw [reached, List.take_add_one, hitem, go, List.zipIdx_append, List.foldl_append,
          Nat.zero_add, List.length_take_of_le hk.le]
        rfl
      rw [hstep]
      simpa using h.step_cases (clock k) item

theorem exists_ready (config : Config) (clock : Nat → Timestamp) (items : List Item) (k : ℕ) :
    ∃ t, Ready config t (reached config clock items k) ∧ t.WellFormed := by
  induction k with
  | zero => exact ⟨{}, ready_start config, Tables.wellFormed_empty⟩
  | succ k ih =>
      obtain ⟨t, hready, ht⟩ := ih
      rcases reached_cases hready with ⟨-, hready⟩ | ⟨o, reply, t', -, heffect, hready⟩
      · exact ⟨t, hready, ht⟩
      · exact ⟨t', hready, heffect.wellFormed ht⟩

theorem log_prefix_reached (config : Config) (clock : Nat → Timestamp) (items : List Item)
    (k more : ℕ) :
    (reached config clock items k).service.store.tables.log <+:
      (reached config clock items (k + more)).service.store.tables.log := by
  induction more with
  | zero => exact List.prefix_refl _
  | succ more ih =>
      apply ih.trans
      obtain ⟨t, hready, -⟩ := exists_ready config clock items (k + more)
      rcases reached_cases hready with ⟨-, hready'⟩ | ⟨o, reply, t', -, heffect, hready'⟩
      · refine ⟨[], ?_⟩
        rw [List.append_nil, hready.store, ← Nat.add_assoc, hready'.store]
      · rw [hready.store, ← Nat.add_assoc, hready'.store]
        exact heffect.log_prefix

theorem tables_run (config : Config) (clock : Nat → Timestamp) (items : List Item) :
    (run config clock items).service.store.tables =
      (reached config clock items items.length).service.store.tables := by
  rw [reached, List.take_length]
  exact congrArg Store.tables (Service.store_shutdown _)

/-- A deposit or a transfer that is counted as applied is entered in the log, for good. The amount of
its log row is a multiple of the currency's minor unit. It is what the text of the amount denotes if
the text can be read without rounding, and else it is something else. -/
theorem applied_amount_iff_exact (config : Config) (clock : Nat → Timestamp)
    (hrow : (Row.readAll bytes)[k]? = some (.ok row))
    (hverb : Verb.ofText? row.verb = some verb) (hmoves : verb.movesMoney = true)
    (htext : row.amount = some text)
    (happlied : (reached config clock (Item.readAll bytes) k).applied <
      (reached config clock (Item.readAll bytes) (k + 1)).applied) :
    ∃ entry account,
      (reached config clock (Item.readAll bytes) (k + 1)).service.store.tables.log =
        (reached config clock (Item.readAll bytes) k).service.store.tables.log ++ [entry] ∧
      entry ∈ (run config clock (Item.readAll bytes)).service.store.tables.log ∧
      account ∈ (run config clock (Item.readAll bytes)).accounts ∧ account.id = entry.destination ∧
      (∃ units : ℕ, entry.amount.value = units / 10 ^ Currency.minorUnits account.currency) ∧
      (entry.amount.value = Decimal.denoted (trim text).toList ↔
        Decimal.Exact (trim text).toList) := by
  have hitem := Item.readAll_getElem? hrow
  generalize Item.readAll bytes = items at hitem happlied ⊢
  obtain ⟨t, hready, ht⟩ := exists_ready config clock items k
  rcases reached_cases hready with ⟨hsame, -⟩ | ⟨o, reply, t', ho, heffect, hready'⟩
  · exact absurd happlied hsame.not_gt
  have hoperation : row.operation = .ok o := by
    rw [hitem, Option.some.injEq] at ho
    cases hrow' : row.operation with
    | error e =>
        rw [hrow'] at ho
        cases ho
    | ok o' =>
        rw [hrow'] at ho
        cases ho
        rfl
  obtain ⟨d, hread, hamount⟩ := Row.amount?_of_operation hoperation hverb hmoves htext
  obtain ⟨entry, hlog, hvalue⟩ := heffect.entry_of_amount? hamount
  have hentry : entry ∈ (run config clock items).service.store.tables.log := by
    obtain ⟨more, hmore⟩ := Nat.exists_eq_add_of_le (List.getElem?_eq_some_iff.mp hitem).1
    rw [tables_run, hmore]
    apply (log_prefix_reached config clock items (k + 1) more).subset
    rw [hready'.store, hlog]
    exact List.mem_append_right _ (List.mem_singleton_self entry)
  have hfinal : (run config clock items).service.store.tables.WellFormed := by
    obtain ⟨t'', hready'', ht''⟩ := exists_ready config clock items items.length
    rw [tables_run, hready''.store]
    exact ht''
  obtain ⟨⟨account, haccount, hscale⟩, hpositive, -⟩ := hfinal.entries entry hentry
  refine ⟨entry, account, ?_, hentry, Tables.mem_of_find? haccount, Tables.id_of_find? haccount,
    ⟨entry.amount.mantissa, ?_⟩, ?_⟩
  · rw [hready'.store, hready.store, hlog]
  · rw [← hscale, ← Decimal.value_of_nonneg hpositive.le]
  · rw [hvalue]
    exact Decimal.value_of_ofString? hread

/-- A file that opens an account and makes one deposit. -/
def depositFile (amount : String) : List UInt8 :=
  Utf8.encode
    ("op,user,account,to,amount,account_type,currency,description\n" ++
      "open,1,,,,savings,USD,\ndeposit,1,1,," ++ amount ++ ",,,\n").toList

def depositRow (amount : String) : Row where
  verb := "deposit"
  user := 1
  account := some 1
  amount := some amount

/-- An underscore and a power of ten take nothing away from an amount. -/
theorem applied_amount_iff_exact_shifted :
    ∃ entry, entry ∈ (run .standard (fun _ => .epoch)
        (Item.readAll (depositFile "1_0.5e-1"))).service.store.tables.log ∧
      Decimal.Exact (trim "1_0.5e-1").toList ∧
      entry.amount.value = Decimal.denoted (trim "1_0.5e-1").toList := by
  have hrow : (Row.readAll (depositFile "1_0.5e-1"))[1]? = some (.ok (depositRow "1_0.5e-1")) := by
    decide +kernel
  have hverb : Verb.ofText? (depositRow "1_0.5e-1").verb = some .deposit := by decide
  have happlied : (reached .standard (fun _ => .epoch)
        (Item.readAll (depositFile "1_0.5e-1")) 1).applied <
      (reached .standard (fun _ => .epoch) (Item.readAll (depositFile "1_0.5e-1")) 2).applied := by
    decide +kernel
  obtain ⟨entry, -, -, hentry, -, -, -, hiff⟩ :=
    applied_amount_iff_exact .standard (fun _ => .epoch) hrow hverb rfl rfl happlied
  have hdigits : Decimal.digitsValue (Decimal.significand (trim "1_0.5e-1").toList) = 105 := by
    decide +kernel
  obtain ⟨hpositional, hdenoted⟩ := Decimal.denoted_of_digits (by decide +kernel) hdigits
    (show _ = 1 by decide +kernel) (show _ = -1 by decide +kernel)
  have hexact : Decimal.Exact (trim "1_0.5e-1").toList := by
    constructor
    · refine ⟨⟨false, 105, 1, by decide, by decide⟩, ?_⟩
      rw [hpositional]
      norm_num [Decimal.value, Decimal.signed]
    · refine ⟨.cents 105, ?_⟩
      rw [hdenoted, Decimal.value_cents]
      norm_num
  exact ⟨entry, hentry, hexact, hiff.mpr hexact⟩

/-- One dollar and a fraction that no decimal number can hold. -/
def fineAmount : String :=
  "1.00000000000000000000000000001"

/-- An amount that is finer than a cent is rounded to a whole number of cents, and applied. -/
theorem applied_amount_rounded :
    (Row.readAll (depositFile fineAmount))[1]? = some (.ok (depositRow fineAmount)) ∧
      (reached .standard (fun _ => .epoch) (Item.readAll (depositFile fineAmount)) 1).applied <
        (reached .standard (fun _ => .epoch) (Item.readAll (depositFile fineAmount)) 2).applied ∧
      (∀ units : ℤ, Decimal.denoted (trim fineAmount).toList ≠
        units / 10 ^ Currency.minorUnits "USD") ∧
      ∃ entry,
        (run .standard (fun _ => .epoch)
          (Item.readAll (depositFile fineAmount))).service.store.tables.log = [entry] ∧
        entry.amount.value = 1 ∧
        entry.amount.value ≠ Decimal.denoted (trim fineAmount).toList := by
  have hlog : ((run .standard (fun _ => .epoch)
      (Item.readAll (depositFile fineAmount))).service.store.tables.log.map (·.amount)) =
        [.cents 100] := by
    decide +kernel
  have hdigits : Decimal.digitsValue (Decimal.significand (trim fineAmount).toList) =
      10 ^ 29 + 1 := by
    decide +kernel
  obtain ⟨-, hdenoted⟩ := Decimal.denoted_of_digits (by decide +kernel) hdigits
    (show _ = 29 by decide +kernel) (show _ = 0 by decide +kernel)
  refine ⟨by decide +kernel, by decide +kernel, ?_, ?_⟩
  · intro units hunits
    have hminor : Currency.minorUnits "USD" = 2 := by decide
    rw [hdenoted, hminor, zpow_zero, mul_one, div_eq_div_iff (by norm_num) (by norm_num)] at hunits
    have hwhole : ((10 ^ 29 + 1 : ℕ) : ℤ) * 10 ^ 2 = units * 10 ^ 29 := by exact_mod_cast hunits
    omega
  · obtain ⟨entry, hentries, hamount⟩ := List.map_eq_singleton_iff.mp hlog
    have hvalue : entry.amount.value = 1 := by
      rw [hamount, Decimal.value_cents]
      norm_num
    refine ⟨entry, hentries, hvalue, ?_⟩
    rw [hvalue, hdenoted]
    norm_num

end Replay

end Ledger
