import Ledger.Proofs.Tables.WellFormed
import Mathlib.Data.List.Nodup

/-!
What a request does to an account that is there already: nothing; or it pays into it or out of it,
which the log tells; or it closes it.
-/

namespace Ledger

/-- Whether a log row moves money to an account or from it. -/
def Transaction.names (id : AccountId) (entry : Transaction) : Bool :=
  entry.source = some id || entry.destination = id

/-- The log rows that name an account. -/
def Tables.history (t : Tables) (id : AccountId) : List Transaction :=
  t.log.filter (·.names id)

/-- What a request makes of an account, and the log rows that it enters for it. -/
inductive Account.Change (now : Timestamp) (t : Tables) (row : Account) :
    Request → Account → List Transaction → Prop
  | untouched {r : Request} : Change now t row r row []
  | deposited {user : UserId} {asked amount balance : Decimal} (owned : row.user = user)
      (active : row.status = .active) (worth : amount.value = asked.value)
      (more : balance.value = row.balance.value + amount.value) :
      Change now t row (.deposit user row.id asked) (Tables.stamp now { row with balance })
        [t.newEntry now (.ofDeposit user row.id amount)]
  | debited {q : TransferRequest} {amount balance : Decimal} (source : q.source = row.id)
      (owned : row.user = q.user) (active : row.status = .active)
      (worth : amount.value = q.amount.value)
      (less : balance.value = row.balance.value - amount.value) :
      Change now t row (.transfer q) (Tables.stamp now { row with balance })
        [t.newEntry now (q.entry amount)]
  | credited {q : TransferRequest} {amount balance : Decimal} (destination : q.destination = row.id)
      (visible : q.kind = .internal → row.user = q.user) (active : row.status = .active)
      (worth : amount.value = q.amount.value)
      (more : balance.value = row.balance.value + amount.value) :
      Change now t row (.transfer q) (Tables.stamp now { row with balance })
        [t.newEntry now (q.entry amount)]
  | closed {user : UserId} (owned : row.user = user) (active : row.status ≠ .closed) :
      Change now t row (.close user row.id) (Tables.stamp now { row with status := .closed }) []

variable {config : Config} {now : Timestamp} {t t' : Tables} {r : Request} {reply : Reply}
  {id : AccountId} {row row' : Account} {entries : List Transaction}

namespace Tables

theorem history_enter (t : Tables) (now : Timestamp) (new : NewTransaction) (id : AccountId) :
    (t.enter now new).history id =
      t.history id ++ if (t.newEntry now new).names id then [t.newEntry now new] else [] := by
  rw [history, log_enter, List.filter_append, List.filter_singleton, Bool.cond_eq_ite]
  rfl

theorem WellFormed.find?_of_mem (ht : t.WellFormed) (h : row ∈ t.accounts) :
    t.find? row.id = some row :=
  Tables.find?_of_mem (ht.ascending.imp Nat.ne_of_lt) h

theorem WellFormed.history_nextId (ht : t.WellFormed) : t.history t.nextId = [] := by
  apply List.filter_eq_nil_iff.mpr
  intro entry hentry hnames
  obtain ⟨⟨row, hto, -⟩, -, hdeposit, hother⟩ := ht.entries entry hentry
  have hlt : ∀ id row, t.find? id = some row → id ≠ t.nextId := by
    rintro id row hrow rfl
    exact Nat.ne_of_lt (ht.lt_nextId row (mem_of_find? hrow)) (id_of_find? hrow)
  rcases (Bool.or_eq_true _ _).mp hnames with hsource | hdestination
  · have hsource := of_decide_eq_true hsource
    rcases Decidable.em (entry.kind = .deposit) with hkind | hkind
    · rw [hdeposit hkind] at hsource
      cases hsource
    · obtain ⟨id, source, -, hid, -, hfrom, -⟩ := hother hkind
      rw [hid, Option.some.injEq] at hsource
      exact hlt id source hfrom hsource
  · exact hlt _ row hto (of_decide_eq_true hdestination)

end Tables

namespace Effect

section Credit

variable {user : UserId} {asked amount balance : Decimal} {found : Account} {account : AccountId}

theorem change_deposited (ht : t.WellFormed) (positive : ¬asked ≤ 0)
    (hfound : t.find? account = some found) (owned : found.user = user)
    (active : found.status = .active) (scaled : Currency.scale? asked found.currency = some amount)
    (credit : Currency.credit? found.balance amount = some balance)
    (hrow : t.find? id = some row) :
    ∃ row' entries,
      ((t.update now { found with balance }).enter now (.ofDeposit user account amount)).find? id =
        some row' ∧
      ((t.update now { found with balance }).enter now (.ofDeposit user account amount)).history
        id = t.history id ++ entries ∧
      row.Change now t (.deposit user account asked) row' entries := by
  obtain ⟨-, hmore⟩ := credited (ht.of_find? hfound) positive active scaled credit
  obtain rfl := Tables.id_of_find? hfound
  rw [Tables.find?_enter, Tables.find?_update now { found with balance } hfound,
    Tables.history_enter]
  rcases Decidable.em (id = found.id) with rfl | hne
  · rw [hfound, Option.some.injEq] at hrow
    subst hrow
    refine ⟨_, _, if_pos rfl, congrArg _ (if_pos ?_), .deposited owned active ?_ hmore⟩
    · simp [Transaction.names, Tables.newEntry, NewTransaction.ofDeposit]
    · exact (Currency.scale?_spec scaled).2
  · refine ⟨row, [], (if_neg hne).trans hrow, congrArg _ (if_neg ?_), .untouched⟩
    simp [Transaction.names, Tables.newEntry, NewTransaction.ofDeposit, Ne.symm hne]

end Credit

section Exchange

variable {q : TransferRequest} {source destination : Account} {amount debited credited : Decimal}

theorem change_transferred (ht : t.WellFormed) (positive : ¬q.amount ≤ 0)
    (distinct : q.source ≠ q.destination) (from_found : t.find? q.source = some source)
    (owned : source.user = q.user) (to_found : t.find? q.destination = some destination)
    (visible : q.kind = .internal → destination.user = q.user)
    (same_currency : source.currency = destination.currency)
    (scaled : Currency.scale? q.amount source.currency = some amount)
    (from_active : source.status = .active) (to_active : destination.status = .active)
    (covered : ¬source.balance < amount) (debit : source.balance.sub? amount = some debited)
    (credit : Currency.credit? destination.balance amount = some credited)
    (hrow : t.find? id = some row) :
    ∃ row' entries,
      (((t.update now { source with balance := debited }).update now
        { destination with balance := credited }).enter now (q.entry amount)).find? id =
          some row' ∧
      (((t.update now { source with balance := debited }).update now
        { destination with balance := credited }).enter now (q.entry amount)).history id =
          t.history id ++ entries ∧
      row.Change now t (.transfer q) row' entries := by
  obtain ⟨-, -, hless, hmore⟩ := exchanged (ht.of_find? from_found) (ht.of_find? to_found)
    positive same_currency scaled from_active to_active covered debit credit
  have hworth := (Currency.scale?_spec scaled).2
  have hfrom := Tables.id_of_find? from_found
  have hto := Tables.id_of_find? to_found
  have hself := find?_self from_found
  have hself' := find?_destination now debited distinct from_found to_found
  rw [Tables.find?_enter, Tables.history_enter,
    Tables.find?_update now { destination with balance := credited } hself',
    Tables.find?_update now { source with balance := debited } hself]
  simp only [Transaction.names, Tables.newEntry, TransferRequest.entry, Option.some.injEq]
  rcases Decidable.em (id = q.destination) with rfl | hne'
  · rw [to_found, Option.some.injEq] at hrow
    subst hrow
    refine ⟨_, _, if_pos hto.symm, congrArg _ (if_pos (by simp)), ?_⟩
    exact .credited hto.symm visible to_active hworth hmore
  rw [if_neg (fun h => hne' (h.trans hto))]
  rcases Decidable.em (id = q.source) with rfl | hne
  · rw [from_found, Option.some.injEq] at hrow
    subst hrow
    refine ⟨_, _, if_pos hfrom.symm, congrArg _ (if_pos (by simp)), ?_⟩
    exact .debited hfrom.symm owned from_active hworth hless
  · refine ⟨row, [], (if_neg (fun h => hne (h.trans hfrom))).trans hrow, congrArg _ (if_neg ?_),
      .untouched⟩
    simp [Ne.symm hne, Ne.symm hne']

end Exchange

/-- Every request changes an account in one of few ways, and the log tells which. -/
theorem change (h : Effect config now t r reply t') (ht : t.WellFormed)
    (hrow : t.find? id = some row) :
    ∃ row' entries, t'.find? id = some row' ∧ t'.history id = t.history id ++ entries ∧
      row.Change now t r row' entries := by
  cases h with
  | opened =>
      refine ⟨row, [], Tables.find?_insert_of_find? now _ hrow, ?_, .untouched⟩
      rw [List.append_nil]
      rfl
  | deposited positive found owned active scaled credit =>
      exact change_deposited ht positive found owned active scaled credit hrow
  | transferred positive distinct from_found owned to_found visible same_currency scaled
      from_active to_active covered debit credit =>
      exact change_transferred ht positive distinct from_found owned to_found visible same_currency
        scaled from_active to_active covered debit credit hrow
  | @closed user account found hfound owned active =>
      obtain rfl := Tables.id_of_find? hfound
      rw [Tables.find?_update now { found with status := .closed } hfound]
      rcases Decidable.em (id = found.id) with rfl | hne
      · rw [hfound, Option.some.injEq] at hrow
        subst hrow
        exact ⟨_, [], if_pos rfl, (List.append_nil _).symm, .closed owned active⟩
      · exact ⟨row, [], (if_neg hne).trans hrow, (List.append_nil _).symm, .untouched⟩
  | _ => exact ⟨row, [], hrow, (List.append_nil _).symm, .untouched⟩

theorem exists_before (h : Effect config now t r reply t') (hrow' : t'.find? id = some row') :
    (∃ row, t.find? id = some row) ∨
      ∃ user product currency new, NewAccount.ofInput user product currency = .ok new ∧
        row' = t.newRow now new ∧ t' = t.insert now new := by
  have hupdate : ∀ (t : Tables) row,
      ((t.update now row).find? id).isSome = (t.find? id).isSome :=
    fun t row => Tables.find?_replace_isSome t (Tables.stamp now row) id
  have hisSome := Option.isSome_of_eq_some hrow'
  cases h with
  | @opened user product currency new accepted =>
      rw [Tables.find?, Tables.insert, List.find?_append, Option.or_eq_some_iff] at hrow'
      rcases hrow' with hold | ⟨-, hlast⟩
      · exact .inl ⟨row', hold⟩
      · refine .inr ⟨user, product, currency, new, accepted, ?_, rfl⟩
        exact List.mem_singleton.mp (List.mem_of_find?_eq_some hlast)
  | deposited | transferred | closed =>
      simp only [Tables.find?_enter, hupdate] at hisSome
      exact .inl (Option.isSome_iff_exists.mp hisSome)
  | _ => exact .inl ⟨row', hrow'⟩

end Effect

end Ledger
