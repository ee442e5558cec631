import Ledger.Proofs.Decimal.Sums
import Ledger.Proofs.Tables.Books
import Ledger.Proofs.Tables.Changes
import Ledger.Simulation.Run

/-!
The accounts of a simulation. They are opened one after another, each is paid the same amount, and
they are numbered from one.
-/

namespace Ledger.Simulation

/-- A simulation whose initial balances are in whole cents, and can be added up. -/
structure Payable (sim : Simulation) : Prop where
  positive : 0 < sim.initialBalance.value
  cents : ∃ cents : ℕ, sim.initialBalance.value = cents / 100
  room : sim.initialBalance.value * sim.accounts * 100 ≤ 2 ^ 96 - 1

/-- So many accounts of a simulation are there, and no others. -/
structure Opened (count : ℕ) (t : Tables) : Prop where
  wellFormed : t.WellFormed
  length : t.accounts.length = count
  rows : ∀ index row, t.accounts[index]? = some row → row.id = index + 1 ∧
    row.user = ownerOf index ∧ row.currency = currency ∧ row.status = .active

/-- So many accounts are there, and nothing has been moved between them. -/
structure Funded (sim : Simulation) (count : ℕ) (t : Tables) : Prop extends Opened count t where
  balances : ∀ row ∈ t.accounts, row.balance.value = sim.initialBalance.value

variable {sim : Simulation} {config : Config} {clock : Nat → Timestamp} {now now' : Timestamp}
  {t : Tables} {d : Desk} {count index : ℕ} {row : Account} {scaled : Decimal}

theorem minorUnits_currency : Currency.minorUnits currency = 2 := by
  decide

namespace Opened

theorem find? (h : Opened count t) (hrow : t.accounts[index]? = some row) :
    t.find? (index + 1) = some row := by
  rw [← (h.rows index row hrow).1]
  exact h.wellFormed.find?_of_mem (List.mem_of_getElem? hrow)

theorem exists_row (h : Opened count t) (hlt : index < count) :
    ∃ row, t.accounts[index]? = some row ∧ t.find? (index + 1) = some row ∧
      row.user = ownerOf index ∧ row.currency = currency ∧ row.status = .active := by
  rw [← h.length] at hlt
  have hrow := List.getElem?_eq_getElem hlt
  exact ⟨_, hrow, h.find? hrow, (h.rows index _ hrow).2⟩

theorem nextId (h : Opened count t) : t.nextId = count + 1 := by
  rw [Tables.nextId, List.getLast?_eq_getElem?, h.length]
  cases count with
  | zero => rw [List.getElem?_eq_none (by rw [h.length])]
  | succ count =>
      obtain ⟨last, hlast, -⟩ := h.exists_row (Nat.lt_succ_self count)
      rw [Nat.add_sub_cancel, hlast]
      exact congrArg (· + 1) (h.rows count last hlast).1

theorem currency_of_mem (h : Opened count t) (hrow : row ∈ t.accounts) :
    row.currency = currency := by
  obtain ⟨index, hindex⟩ := List.mem_iff_getElem?.mp hrow
  exact (h.rows index row hindex).2.2.1

theorem total (h : Opened count t) :
    t.total currency = (t.accounts.map (·.balance.value)).sum := by
  have hall : t.accounts.filter (fun row => row.currency = currency) = t.accounts := by
    apply List.filter_eq_self.mpr
    intro row hrow
    exact decide_eq_true (h.currency_of_mem hrow)
  rw [Tables.total, sumOf, hall]

end Opened

theorem Funded.total (h : sim.Funded count t) :
    t.total currency = sim.initialBalance.value * count := by
  have hconst : t.accounts.map (·.balance.value) =
      List.replicate count sim.initialBalance.value := by
    rw [← h.length]
    exact List.map_eq_replicate_iff.mpr h.balances
  rw [h.toOpened.total, hconst, List.sum_replicate, nsmul_eq_mul, mul_comm]

theorem Payable.exists_cents (h : sim.Payable) :
    ∃ cents : ℕ, 0 < cents ∧ sim.initialBalance.value = cents / 100 ∧
      cents * sim.accounts < 2 ^ 96 := by
  obtain ⟨cents, hcents⟩ := h.cents
  refine ⟨cents, ?_, hcents, ?_⟩
  · have hpos := h.positive
    rw [hcents] at hpos
    by_contra hzero
    obtain rfl : cents = 0 := by omega
    norm_num at hpos
  · have hroom := h.room
    rw [hcents, mul_right_comm, div_mul_cancel₀ _ (by norm_num)] at hroom
    have hlt : ((cents * sim.accounts : ℕ) : ℚ) < 2 ^ 96 := by
      push_cast
      linarith
    exact_mod_cast hlt

theorem Payable.exists_scaled (h : sim.Payable) (haccounts : 0 < sim.accounts) :
    ∃ scaled, Currency.scale? sim.initialBalance currency = some scaled := by
  obtain ⟨cents, -, hvalue, hroom⟩ := h.exists_cents
  apply Currency.exists_scale? (n := cents)
  · rw [hvalue, minorUnits_currency]
    norm_num
  · rw [Int.natAbs_natCast]
    exact lt_of_le_of_lt (Nat.le_mul_of_pos_right cents haccounts) hroom

theorem ofInput_checking (user : UserId) :
    ∃ new, NewAccount.ofInput user "checking" currency = .ok new ∧ new.user = user ∧
      new.currency = currency :=
  ⟨_, rfl, rfl, rfl⟩

/-- The tables after an account has been opened and its first deposit has been made. -/
def paidIn (t : Tables) (now now' : Timestamp) (new : NewAccount) (scaled : Decimal) : Tables :=
  ((t.insert now new).update now' { t.newRow now new with balance := scaled }).enter now'
    (.ofDeposit new.user t.nextId scaled)

section FirstDeposit

variable {new : NewAccount} {user : UserId} {product code : String} {asked : Decimal}
  (ht : t.WellFormed)

include ht

theorem accounts_paidIn (now now' : Timestamp) (new : NewAccount) (scaled : Decimal) :
    (paidIn t now now' new scaled).accounts =
      t.accounts ++ [Tables.stamp now' { t.newRow now new with balance := scaled }] := by
  have hold : ∀ old ∈ t.accounts, (if old.id = t.nextId then
      Tables.stamp now' { t.newRow now new with balance := scaled } else old) = old := by
    intro old hmem
    exact if_neg (ht.lt_nextId old hmem).ne
  have hlast : (if (t.newRow now new).id = t.nextId then
      Tables.stamp now' { t.newRow now new with balance := scaled } else t.newRow now new) =
        Tables.stamp now' { t.newRow now new with balance := scaled } :=
    if_pos rfl
  show (t.accounts ++ [t.newRow now new]).map (fun old => if old.id = t.nextId then
    Tables.stamp now' { t.newRow now new with balance := scaled } else old) = _
  rw [List.map_append, List.map_singleton, hlast, List.map_congr_left hold, List.map_id']

theorem outcome_first_deposit (config : Config) (now now' : Timestamp)
    (hnew : NewAccount.ofInput user product code = .ok new) (hpos : ¬asked ≤ 0)
    (hscale : Currency.scale? asked new.currency = some scaled) :
    ∃ reply, (Request.deposit new.user t.nextId asked).outcome config now' (t.insert now new) =
        (paidIn t now now' new scaled, .ok reply) ∧
      (paidIn t now now' new scaled).WellFormed := by
  have haccepted := NewAccount.accepted_ofInput hnew
  have ht' : (t.insert now new).WellFormed := ht.insert haccepted
  have hrow : (t.insert now new).find? t.nextId = some (t.newRow now new) :=
    ht'.find?_of_mem (List.mem_append_right _ (List.mem_singleton_self _))
  have hcredit : Currency.credit? (t.newRow now new).balance scaled = some scaled := by
    have hplaces : scaled.scale = (t.newRow now new).balance.scale :=
      (Currency.scale?_spec hscale).1.trans haccepted.places.symm
    have hempty : (t.newRow now new).balance.mantissa = 0 := haccepted.empty
    rw [Currency.credit?, Decimal.add?, if_pos hempty, Option.filter_some,
      if_pos (decide_eq_true hplaces)]
  have heffect : Effect config now' (t.insert now new) (.deposit new.user t.nextId asked) _
      (paidIn t now now' new scaled) :=
    .deposited hpos hrow rfl haccepted.active hscale hcredit
  exact ⟨_, Request.outcome_deposit_ok hpos hrow rfl haccepted.active hscale hcredit,
    heffect.wellFormed ht'⟩

end FirstDeposit

theorem Funded.paidIn {new : NewAccount} (h : sim.Funded count t)
    (hnew : NewAccount.ofInput (ownerOf count) "checking" currency = .ok new)
    (huser : new.user = ownerOf count) (hcurrency : new.currency = currency)
    (hscale : Currency.scale? sim.initialBalance currency = some scaled)
    (hwellFormed : (paidIn t now now' new scaled).WellFormed) :
    sim.Funded (count + 1) (paidIn t now now' new scaled) := by
  have haccounts := accounts_paidIn h.wellFormed now now' new scaled
  refine ⟨⟨hwellFormed, ?_, ?_⟩, ?_⟩
  · rw [haccounts, List.length_append, h.length]
    rfl
  · intro index row hrow
    rw [haccounts] at hrow
    rcases Nat.lt_or_ge index t.accounts.length with hlt | hge
    · rw [List.getElem?_append_left hlt] at hrow
      exact h.rows index row hrow
    · rw [List.getElem?_append_right hge, List.getElem?_singleton] at hrow
      split at hrow
      · rename_i hlast
        obtain rfl : index = count := by rw [← h.length]; omega
        cases hrow
        exact ⟨h.nextId, huser, hcurrency, (NewAccount.accepted_ofInput hnew).active⟩
      · cases hrow
  · intro row hrow
    rw [haccounts] at hrow
    rcases List.mem_append.mp hrow with hold | hlast
    · exact h.balances row hold
    · rw [List.mem_singleton.mp hlast]
      exact (Currency.scale?_spec hscale).2

theorem fund_ok (h : sim.Payable) (clock : Nat → Timestamp) (hindex : index < sim.accounts)
    (hready : d.service.Ready config t) (hfunded : sim.Funded index t) :
    ∃ d' t', sim.fund clock d index = .ok d' ∧ d'.service.Ready config t' ∧
      sim.Funded (index + 1) t' := by
  obtain ⟨scaled, hscale⟩ := h.exists_scaled (Nat.zero_lt_of_lt hindex)
  obtain ⟨new, hnew, huser, hcurrency⟩ := ofInput_checking (ownerOf index)
  have hpos : ¬sim.initialBalance ≤ 0 := Decimal.not_le_zero_of_pos h.positive
  have hopened : (Request.openAccount (ownerOf index) "checking" currency).outcome config
        (clock d.readings) t =
      (t.insert (clock d.readings) new, .ok (.opened (t.newRow (clock d.readings) new))) := by
    rw [Request.outcome, Request.program_openAccount, hnew]
    rfl
  obtain ⟨s', hcall, hready'⟩ := hready.call (clock d.readings)
    (.openAccount (ownerOf index) "checking" currency)
  rw [hopened] at hcall hready'
  obtain ⟨reply, hdeposited, hwellFormed⟩ := outcome_first_deposit hfunded.wellFormed config
    (clock d.readings) (clock (d.readings + 1)) hnew hpos (by rwa [hcurrency])
  obtain ⟨s'', hcall', hready''⟩ := hready'.call (clock (d.readings + 1))
    (.deposit new.user t.nextId sim.initialBalance)
  rw [hdeposited] at hcall' hready''
  refine ⟨⟨s'', d.readings + 2⟩, _, ?_, hready'',
    hfunded.paidIn hnew huser hcurrency hscale hwellFormed⟩
  rw [huser] at hcall'
  simp only [fund, Desk.call, hready.store, hcall, hcall']

theorem openAccounts_ok (h : sim.Payable) (config : Config) (clock : Nat → Timestamp) :
    ∃ d t, sim.openAccounts config clock = .ok d ∧ d.service.Ready config t ∧
      sim.Funded sim.accounts t := by
  have hfold : ∀ count ≤ sim.accounts, ∃ d t,
      (List.range count).foldlM (sim.fund clock) { service := .start config } = .ok d ∧
        d.service.Ready config t ∧ sim.Funded count t := by
    intro count
    induction count with
    | zero =>
        intro _
        refine ⟨_, {}, rfl, Service.ready_start config, ⟨Tables.wellFormed_empty, rfl, ?_⟩, ?_⟩
        · intro index row hrow
          cases hrow
        · intro row hrow
          cases hrow
    | succ count ih =>
        intro hle
        obtain ⟨d, t, hfold, hready, hfunded⟩ := ih (Nat.le_of_succ_le hle)
        obtain ⟨d', t', hfund, hready', hfunded'⟩ := fund_ok h clock hle hready hfunded
        refine ⟨d', t', ?_, hready', hfunded'⟩
        rw [List.range_succ, List.foldlM_append, hfold]
        show List.foldlM (sim.fund clock) d [count] = _
        rw [List.foldlM_cons, hfund]
        rfl
  exact hfold sim.accounts le_rfl

end Ledger.Simulation
