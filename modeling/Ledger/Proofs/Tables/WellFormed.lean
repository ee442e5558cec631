import Ledger.Proofs.Call.NewAccount
import Ledger.Proofs.Concurrent.Invariant
import Ledger.Proofs.Decimal.Rescale

namespace Ledger

/-- An account as the ledger keeps it: money at the places of its currency and never negative, a
currency of three upper-case letters, a trimmed product that is not empty, and no money once it is
closed. -/
structure Account.WellFormed (row : Account) : Prop where
  nonneg : 0 ≤ row.balance.value
  places : row.balance.scale = Currency.minorUnits row.currency
  code_length : row.currency.toList.length = 3
  code_upper : ∀ c ∈ row.currency.toList, c.isUpper = true
  product_ne : row.product ≠ ""
  trimmed : trim row.product = row.product
  closed_empty : row.status = .closed → row.balance.value = 0

/-- Where the money of a log row comes from: from outside for a deposit, and else from another
account of the destination's currency. -/
def Transaction.SourceFits (t : Tables) (entry : Transaction) : Prop :=
  (entry.kind = .deposit → entry.source = none) ∧
    (entry.kind ≠ .deposit →
      ∃ id source destination, entry.source = some id ∧ id ≠ entry.destination ∧
        t.find? id = some source ∧ t.find? entry.destination = some destination ∧
        source.currency = destination.currency)

/-- A log row as the ledger keeps it: a positive amount at the places of its destination's currency.
-/
structure Transaction.WellFormed (t : Tables) (entry : Transaction) : Prop where
  destination : ∃ row, t.find? entry.destination = some row ∧
    entry.amount.scale = Currency.minorUnits row.currency
  positive : 0 < entry.amount.value
  source : entry.SourceFits t

/-- The accounts are ascending by id, and every row is as it should be. -/
structure Tables.WellFormed (t : Tables) : Prop where
  ascending : (t.accounts.map (·.id)).Pairwise (· < ·)
  accounts : ∀ row ∈ t.accounts, row.WellFormed
  entries : ∀ entry ∈ t.log, entry.WellFormed t

variable {config : Config} {now : Timestamp} {t t' : Tables} {r : Request} {reply : Reply}
  {row : Account} {entry : Transaction}

theorem Tables.wellFormed_empty : ({} : Tables).WellFormed where
  ascending := .nil
  accounts _ h := nomatch h
  entries _ h := nomatch h

theorem Tables.WellFormed.of_find? (ht : t.WellFormed) {id : AccountId}
    (h : t.find? id = some row) :
    row.WellFormed :=
  ht.accounts row (mem_of_find? h)

theorem Transaction.WellFormed.mono (h : entry.WellFormed t) (hpersists : t.Persists t') :
    entry.WellFormed t' := by
  obtain ⟨⟨row, hrow, hplaces⟩, hpositive, hsource⟩ := h
  refine ⟨?_, hpositive, ?_⟩
  · obtain ⟨row', hrow', -, hcurrency⟩ := hpersists _ row hrow
    exact ⟨row', hrow', by rw [hplaces, hcurrency]⟩
  · refine ⟨hsource.1, ?_⟩
    intro hkind
    obtain ⟨id, source, destination, hid, hne, hfrom, hto, hcurrency⟩ := hsource.2 hkind
    obtain ⟨source', hfrom', -, hsame⟩ := hpersists _ source hfrom
    obtain ⟨destination', hto', -, hsame'⟩ := hpersists _ destination hto
    exact ⟨id, source', destination', hid, hne, hfrom', hto', by rw [hsame, hsame', hcurrency]⟩

theorem Tables.WellFormed.lt_nextId (ht : t.WellFormed) :
    ∀ row ∈ t.accounts, row.id < t.nextId := by
  intro row hrow
  unfold nextId
  have hascending := ht.ascending
  rcases List.eq_nil_or_concat t.accounts with hnil | ⟨rest, last, hlast⟩
  · rw [hnil] at hrow
    cases hrow
  · rw [hlast] at hrow hascending ⊢
    rw [List.concat_eq_append] at hrow hascending ⊢
    rw [List.getLast?_append, List.getLast?_singleton, Option.some_or]
    rw [List.map_append, List.pairwise_append] at hascending
    rcases List.mem_append.mp hrow with hearly | hlate
    · have hlt := hascending.2.2 row.id (List.mem_map_of_mem hearly) last.id (by simp)
      exact Nat.lt_succ_of_lt hlt
    · rw [List.mem_singleton.mp hlate]
      exact Nat.lt_succ_self _

theorem Tables.WellFormed.insert (ht : t.WellFormed) {user : UserId} {new : NewAccount}
    (hnew : new.Accepted user) : (t.insert now new).WellFormed := by
  refine ⟨?_, ?_, ?_⟩
  · rw [Tables.insert, List.map_append, List.pairwise_append]
    refine ⟨ht.ascending, List.pairwise_singleton _ _, ?_⟩
    intro a ha b hb
    obtain ⟨row, hrow, rfl⟩ := List.mem_map.mp ha
    rw [List.mem_singleton.mp hb]
    exact ht.lt_nextId row hrow
  · intro row hrow
    rcases List.mem_append.mp hrow with hold | hlast
    · exact ht.accounts row hold
    · rw [List.mem_singleton.mp hlast]
      have hvalue : new.balance.value = 0 := Decimal.value_eq_zero.mpr hnew.empty
      exact ⟨hvalue.ge, hnew.places, hnew.code_length, hnew.code_upper, hnew.product_ne,
        hnew.trimmed, fun _ => hvalue⟩
  · intro entry hentry
    exact (ht.entries entry hentry).mono (persists_insert t now new)

theorem Tables.ids_update (t : Tables) (now : Timestamp) (row : Account) :
    (t.update now row).accounts.map (·.id) = t.accounts.map (·.id) :=
  t.ids_replace (stamp now row)

theorem Tables.WellFormed.update {old : Account} (ht : t.WellFormed) (hrow : row.WellFormed)
    (hfind : t.find? row.id = some old) (huser : row.user = old.user)
    (hcurrency : row.currency = old.currency) : (t.update now row).WellFormed := by
  refine ⟨?_, ?_, ?_⟩
  · rw [ids_update]
    exact ht.ascending
  · intro other hother
    obtain ⟨before, hbefore, rfl⟩ := List.mem_map.mp hother
    split
    · exact ⟨hrow.nonneg, hrow.places, hrow.code_length, hrow.code_upper, hrow.product_ne,
        hrow.trimmed, hrow.closed_empty⟩
    · exact ht.accounts before hbefore
  · intro entry hentry
    exact (ht.entries entry hentry).mono (t.persists_update now row hfind huser hcurrency)

theorem Tables.WellFormed.enter {new : NewTransaction} (ht : t.WellFormed)
    (hnew : (t.newEntry now new).WellFormed t) : (t.enter now new).WellFormed := by
  refine ⟨ht.ascending, ht.accounts, ?_⟩
  intro entry hentry
  rcases List.mem_append.mp hentry with hold | hlast
  · exact (ht.entries entry hold).mono (persists_enter t now new)
  · rw [List.mem_singleton.mp hlast]
    exact hnew.mono (persists_enter t now new)

theorem Account.WellFormed.withBalance (h : row.WellFormed) {balance : Decimal}
    (hactive : row.status = .active) (hplaces : balance.scale = row.balance.scale)
    (hnonneg : 0 ≤ balance.value) : Account.WellFormed { row with balance } := by
  refine ⟨hnonneg, hplaces.trans h.places, h.code_length, h.code_upper, h.product_ne, h.trimmed, ?_⟩
  intro hclosed
  rw [show row.status = .closed from hclosed] at hactive
  cases hactive

theorem amount_spec {asked amount : Decimal} {code : String} (hpos : ¬asked ≤ 0)
    (h : Currency.scale? asked code = some amount) :
    amount.scale = Currency.minorUnits code ∧ 0 < amount.value := by
  obtain ⟨hplaces, hvalue⟩ := Currency.scale?_spec h
  exact ⟨hplaces, hvalue ▸ Decimal.pos_of_not_le_zero hpos⟩

namespace Effect

theorem credited {asked amount balance : Decimal} (hrow : row.WellFormed) (positive : ¬asked ≤ 0)
    (active : row.status = .active) (scaled : Currency.scale? asked row.currency = some amount)
    (credit : Currency.credit? row.balance amount = some balance) :
    Account.WellFormed { row with balance } ∧
      balance.value = row.balance.value + amount.value := by
  obtain ⟨hplaces, hpos⟩ := amount_spec positive scaled
  obtain ⟨hbalance, hmore⟩ := Currency.credit?_spec (hplaces.trans hrow.places.symm) credit
  refine ⟨hrow.withBalance active hbalance ?_, hmore⟩
  rw [hmore]
  linarith [hrow.nonneg]

theorem exchanged {source destination : Account} {asked amount debited credited : Decimal}
    (hsource : source.WellFormed) (hdestination : destination.WellFormed)
    (positive : ¬asked ≤ 0) (same_currency : source.currency = destination.currency)
    (scaled : Currency.scale? asked source.currency = some amount)
    (from_active : source.status = .active) (to_active : destination.status = .active)
    (covered : ¬source.balance < amount)
    (debit : source.balance.sub? amount = some debited)
    (credit : Currency.credit? destination.balance amount = some credited) :
    Account.WellFormed { source with balance := debited } ∧
      Account.WellFormed { destination with balance := credited } ∧
      debited.value = source.balance.value - amount.value ∧
      credited.value = destination.balance.value + amount.value := by
  obtain ⟨hplaces, hpos⟩ := amount_spec positive scaled
  have hfrom : amount.scale = source.balance.scale := hplaces.trans hsource.places.symm
  have hto : amount.scale = destination.balance.scale := by
    rw [hplaces, hdestination.places, same_currency]
  obtain ⟨hdebited, hless⟩ := Currency.debit_spec hfrom hpos covered debit
  obtain ⟨hcredited, hmore⟩ := Currency.credit?_spec hto credit
  rw [Decimal.lt_iff_value, not_lt] at covered
  refine ⟨hsource.withBalance from_active hdebited ?_,
    hdestination.withBalance to_active hcredited ?_, hless, hmore⟩
  · rw [hless]
    linarith
  · rw [hmore]
    linarith [hdestination.nonneg]

/-- Every effect keeps all rows as they should be. -/
theorem wellFormed (h : Effect config now t r reply t') (ht : t.WellFormed) : t'.WellFormed := by
  cases h with
  | opened accepted => exact ht.insert (NewAccount.accepted_ofInput accepted)
  | @deposited user id asked amount balance row positive found _ active scaled credit =>
      obtain ⟨hplaces, hpos⟩ := amount_spec positive scaled
      obtain ⟨hcredited, -⟩ := credited (ht.of_find? found) positive active scaled credit
      have hself := find?_self found
      have hentry : (t.newEntry now (.ofDeposit user id amount)).WellFormed t :=
        ⟨⟨row, found, hplaces⟩, hpos, fun _ => rfl, fun hkind => absurd rfl hkind⟩
      refine (ht.update hcredited hself rfl rfl).enter ?_
      exact hentry.mono (t.persists_update now { row with balance } hself rfl rfl)
  | @transferred r source destination amount debited credited positive distinct from_found _
      to_found _ same_currency scaled from_active to_active covered debit credit =>
      obtain ⟨hfrom, hto, -, -⟩ := exchanged (ht.of_find? from_found) (ht.of_find? to_found)
        positive same_currency scaled from_active to_active covered debit credit
      obtain ⟨hplaces, hpos⟩ := amount_spec positive scaled
      have hself := find?_self from_found
      have hself' := find?_destination now debited distinct from_found to_found
      have hdebited := t.persists_update now { source with balance := debited } hself rfl rfl
      have hcredited := Tables.persists_update _ now { destination with balance := credited } hself'
        rfl rfl
      have hentry : (t.newEntry now (r.entry amount)).WellFormed t := by
        refine ⟨⟨destination, to_found, by rw [← same_currency]; exact hplaces⟩, hpos, ?_, ?_⟩
        · intro hkind
          cases hentry : r.kind with
          | internal | external => simp [Tables.newEntry, TransferRequest.entry, hentry,
              TransferKind.entry] at hkind
        · intro _
          exact ⟨r.source, source, destination, rfl, distinct, from_found, to_found, same_currency⟩
      refine Tables.WellFormed.enter ?_ (hentry.mono (hdebited.trans hcredited))
      exact (ht.update hfrom hself rfl rfl).update hto hself' rfl rfl
  | @closed user id row found _ _ empty =>
      have hrow := ht.of_find? found
      have hself := find?_self found
      have hvalue : row.balance.value = 0 :=
        Decimal.value_eq_zero.mpr (by simpa [Decimal.isZero] using empty)
      have hclosed : Account.WellFormed { row with status := .closed } :=
        ⟨hrow.nonneg, hrow.places, hrow.code_length, hrow.code_upper, hrow.product_ne,
          hrow.trimmed, fun _ => hvalue⟩
      exact ht.update hclosed hself rfl rfl
  | _ => exact ht

end Effect

/-- In every state that calls can lead to from an empty store, in any interleaving and whatever
becomes of them, all rows are as they should be. -/
theorem wellFormed_of_reachable {w : Concurrent.World} (h : w.Reachable config) :
    w.store.tables.WellFormed :=
  h.induction Tables.wellFormed_empty fun _ _ _ _ _ ht heffect => heffect.wellFormed ht

/-- Two accounts are opened, and one of them is paid into. It pays all that it has to the other one,
and is then closed by a call that was made before. -/
def emptiedInPassing : List Concurrent.Action :=
  let steps (call times : Nat) : List Concurrent.Action :=
    List.replicate times (.move call (.perform .epoch))
  List.flatten
    [[.invoke (.openAccount 1 " savings" "usd")], steps 0 1,
      [.invoke (.openAccount 2 "rent " "USD")], steps 1 1,
      [.invoke (.deposit 1 1 (.cents 725))], steps 2 6,
      [.move 2 .release, .invoke (.transfer ⟨1, 1, 2, .cents 725, "", .external⟩),
        .invoke (.close 1 1)],
      steps 4 1, steps 3 9, [.move 3 .release], steps 4 4]

theorem wellFormed_emptiedInPassing :
    ∃ w, (Concurrent.World.start {}).run .standard emptiedInPassing = some w ∧
      w.store.tables.accounts.map (fun row => (row.product, row.balance.mantissa, row.status)) =
        [("savings", 0, .closed), ("rent", 725, .active)] ∧
      w.store.tables.log.map (fun entry => (entry.source, entry.amount.mantissa)) =
        [(none, 725), (some 1, 725)] ∧
      w.store.tables.WellFormed := by
  have hseen : ((Concurrent.World.start {}).run .standard emptiedInPassing).map (fun w =>
      (w.store.tables.accounts.map (fun row => (row.product, row.balance.mantissa, row.status)),
        w.store.tables.log.map (fun entry => (entry.source, entry.amount.mantissa)))) =
      some ([("savings", 0, .closed), ("rent", 725, .active)], [(none, 725), (some 1, 725)]) := by
    decide +kernel
  obtain ⟨w, hrun, hseen⟩ := Option.map_eq_some_iff.mp hseen
  obtain ⟨haccounts, hlog⟩ := Prod.mk.inj hseen
  exact ⟨w, hrun, haccounts, hlog, wellFormed_of_reachable ⟨emptiedInPassing, hrun⟩⟩

end Ledger
