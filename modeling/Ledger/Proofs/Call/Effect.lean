import Ledger.Proofs.Call.Exec

namespace Ledger

/-- What a successful request does to the tables, and what it returns. -/
inductive Effect (config : Config) (now : Timestamp) (t : Tables) :
    Request → Reply → Tables → Prop
  | opened {user : UserId} {product currency : String} {new : NewAccount}
      (accepted : NewAccount.ofInput user product currency = .ok new) :
      Effect config now t (.openAccount user product currency) (.opened (t.newRow now new))
        (t.insert now new)
  | deposited {user : UserId} {id : AccountId} {asked amount balance : Decimal} {row : Account}
      (positive : ¬asked ≤ 0)
      (found : t.find? id = some row) (owned : row.user = user) (active : row.status = .active)
      (scaled : Currency.scale? asked row.currency = some amount)
      (credited : Currency.credit? row.balance amount = some balance) :
      Effect config now t (.deposit user id asked)
        (.deposited (Tables.stamp now { row with balance })
          (t.newEntry now (.ofDeposit user id amount)))
        ((t.update now { row with balance }).enter now (.ofDeposit user id amount))
  | transferred {r : TransferRequest} {source destination : Account}
      {amount debited credited : Decimal}
      (positive : ¬r.amount ≤ 0) (distinct : r.source ≠ r.destination)
      (from_found : t.find? r.source = some source) (owned : source.user = r.user)
      (to_found : t.find? r.destination = some destination)
      (visible : r.kind = .internal → destination.user = r.user)
      (same_currency : source.currency = destination.currency)
      (scaled : Currency.scale? r.amount source.currency = some amount)
      (from_active : source.status = .active) (to_active : destination.status = .active)
      (covered : ¬source.balance < amount)
      (debit : source.balance.sub? amount = some debited)
      (credit : Currency.credit? destination.balance amount = some credited) :
      Effect config now t (.transfer r) (.transferred (t.newEntry now (r.entry amount)))
        (((t.update now { source with balance := debited }).update now
          { destination with balance := credited }).enter now (r.entry amount))
  | closed {user : UserId} {id : AccountId} {row : Account}
      (found : t.find? id = some row) (owned : row.user = user) (active : row.status ≠ .closed)
      (empty : row.balance.isZero = true) :
      Effect config now t (.close user id) (.closed true)
        (t.update now { row with status := .closed })
  | stayed {user : UserId} {id : AccountId} {row : Account}
      (found : t.find? id = some row) (owned : row.user = user) (closed : row.status = .closed) :
      Effect config now t (.close user id) (.closed false) t
  | accounts (user : UserId) :
      Effect config now t (.accounts user) (.accounts (t.accountsOf user)) t
  | account {user : UserId} {id : AccountId} {row : Account}
      (found : t.find? id = some row) (owned : row.user = user) :
      Effect config now t (.account user id) (.account row) t
  | transactions {filter : Filter} {entries : List Transaction}
      (page : { filter with page := max filter.page 1, limit := config.pageLimit filter.limit
        : Filter }.page? t.log = entries) :
      Effect config now t (.transactions filter) (.transactions entries) t
  | transaction {id : TransactionId} {entry : Transaction}
      (found : t.transaction id = .ok entry) :
      Effect config now t (.transaction id) (.transaction entry) t

namespace Effect

variable {config : Config} {now : Timestamp} {t t' : Tables} {r : Request} {reply : Reply}

theorem find?_self {id : AccountId} {row : Account} (h : t.find? id = some row) :
    t.find? row.id = some row := by
  rw [Tables.id_of_find? h, h]

theorem find?_destination (now : Timestamp) (debited : Decimal) {r : TransferRequest}
    {source destination : Account} (distinct : r.source ≠ r.destination)
    (hsource : t.find? r.source = some source)
    (hdestination : t.find? r.destination = some destination) :
    (t.update now { source with balance := debited }).find? destination.id = some destination := by
  have hne : destination.id ≠ source.id := by
    rw [Tables.id_of_find? hsource, Tables.id_of_find? hdestination]
    exact distinct.symm
  rw [Tables.find?_update_of_ne { source with balance := debited } hne]
  exact find?_self hdestination

theorem persists (h : Effect config now t r reply t') : t.Persists t' := by
  cases h with
  | opened => exact Tables.persists_insert t now _
  | @deposited _ _ _ _ balance row _ found =>
      have hself := find?_self found
      have hcredited := t.persists_update now { row with balance } hself rfl rfl
      exact hcredited.trans (Tables.persists_enter _ now _)
  | @transferred _ source destination _ debited credited _ distinct hsource _ hdestination =>
      have hself := find?_self hsource
      have hself' := find?_destination now debited distinct hsource hdestination
      have hdebited := t.persists_update now { source with balance := debited } hself rfl rfl
      have hcredited := Tables.persists_update _ now { destination with balance := credited } hself'
        rfl rfl
      exact (hdebited.trans hcredited).trans (Tables.persists_enter _ now _)
  | @closed _ _ row found =>
      have hself := find?_self found
      exact t.persists_update now { row with status := .closed } hself rfl rfl
  | _ => exact Tables.Persists.refl t

end Effect

namespace Request

variable {config : Config} {now : Timestamp} {t : Tables}

theorem exec_reply {α : Type} (w : Work α) (f : α → Reply) (u : UnitOfWork) :
    ((work.reply w f).exec now u t).2 =
      ((w.exec now u t).2.1, (w.exec now u t).2.2.map f) := by
  rw [work.reply, Procedure.exec_bind]
  rfl

theorem outcome_openAccount (user : UserId) (product currency : String) :
    (∃ e, (openAccount user product currency).outcome config now t = (t, .error e)) ∨
      ∃ reply t', (openAccount user product currency).outcome config now t = (t', .ok reply) ∧
        Effect config now t (.openAccount user product currency) reply t' := by
  rw [outcome, program_openAccount]
  cases hnew : NewAccount.ofInput user product currency with
  | error e => exact .inl ⟨e, rfl⟩
  | ok new => exact .inr ⟨_, _, rfl, .opened hnew⟩

theorem outcome_deposit_ok {user : UserId} {id : AccountId} {asked amount balance : Decimal}
    {row : Account} (hpositive : ¬asked ≤ 0) (hrow : t.find? id = some row)
    (howner : row.user = user) (hactive : row.status = .active)
    (hscale : Currency.scale? asked row.currency = some amount)
    (hcredit : Currency.credit? row.balance amount = some balance) :
    (deposit user id asked).outcome config now t =
      ((t.update now { row with balance }).enter now (.ofDeposit user id amount),
        .ok (.deposited (Tables.stamp now { row with balance })
          (t.newEntry now (.ofDeposit user id amount)))) := by
  rw [outcome, program_deposit, if_neg hpositive, exec_reply,
    Work.exec_deposit_ok hrow howner hactive hscale hcredit]
  rfl

theorem outcome_deposit (user : UserId) (id : AccountId) (asked : Decimal) :
    (∃ e, (deposit user id asked).outcome config now t = (t, .error e)) ∨
      ∃ reply t', (deposit user id asked).outcome config now t = (t', .ok reply) ∧
        Effect config now t (.deposit user id asked) reply t' := by
  rw [outcome, program_deposit]
  by_cases hpositive : asked ≤ 0
  · rw [if_pos hpositive]
    exact .inl ⟨_, rfl⟩
  · rw [if_neg hpositive, exec_reply]
    rcases Work.exec_deposit user id asked with ⟨-, hexec⟩ | ⟨row, hrow, howner,
      ⟨e, -, hexec⟩ | ⟨amount, balance, hactive, hscale, hcredit, hexec⟩⟩
    · rw [hexec]
      exact .inl ⟨_, rfl⟩
    · rw [hexec]
      exact .inl ⟨e, rfl⟩
    · rw [hexec]
      exact .inr ⟨_, _, rfl, .deposited hpositive hrow howner hactive hscale hcredit⟩

theorem outcome_transfer (r : TransferRequest) :
    (∃ e, (transfer r).outcome config now t = (t, .error e)) ∨
      ∃ reply t', (transfer r).outcome config now t = (t', .ok reply) ∧
        Effect config now t (.transfer r) reply t' := by
  rw [outcome, program_transfer]
  by_cases hpositive : r.amount ≤ 0
  · rw [if_pos hpositive]
    exact .inl ⟨_, rfl⟩
  · rw [if_neg hpositive]
    by_cases hsame : r.source = r.destination
    · rw [if_pos hsame]
      exact .inl ⟨_, rfl⟩
    · rw [if_neg hsame, exec_reply]
      rcases Work.exec_transfer hsame with ⟨-, hexec⟩ | ⟨source, hsource, howner,
        ⟨-, hexec⟩ | ⟨destination, hdestination, hvisible, ⟨e, -, hexec⟩ |
          ⟨amount, debited, credited, hcurrency, hscale, hactive, hactive', hcovered, hdebit,
            hcredit, hexec⟩⟩⟩
      · rw [hexec]
        exact .inl ⟨_, rfl⟩
      · rw [hexec]
        exact .inl ⟨_, rfl⟩
      · rw [hexec]
        exact .inl ⟨e, rfl⟩
      · rw [hexec]
        exact .inr ⟨_, _, rfl, .transferred hpositive hsame hsource howner hdestination hvisible
          hcurrency hscale hactive hactive' hcovered hdebit hcredit⟩

theorem outcome_close (user : UserId) (id : AccountId) :
    (∃ e, (close user id).outcome config now t = (t, .error e)) ∨
      ∃ reply t', (close user id).outcome config now t = (t', .ok reply) ∧
        Effect config now t (.close user id) reply t' := by
  rw [outcome, program_close, exec_reply]
  rcases Work.exec_close user id with ⟨-, hexec⟩ | ⟨row, hrow, howner,
    ⟨hclosed, hexec⟩ | ⟨-, -, hexec⟩ | ⟨hactive, hempty, hexec⟩⟩
  · rw [hexec]
    exact .inl ⟨_, rfl⟩
  · rw [hexec]
    exact .inr ⟨_, _, rfl, .stayed hrow howner hclosed⟩
  · rw [hexec]
    exact .inl ⟨_, rfl⟩
  · rw [hexec]
    exact .inr ⟨_, _, rfl, .closed hrow howner hactive hempty⟩

/-- A request fails without a trace, or has its effect. -/
theorem outcome_cases (r : Request) (config : Config) (now : Timestamp) (t : Tables) :
    (∃ e, e.kind ≠ .publishFailure ∧ r.outcome config now t = (t, .error e)) ∨
      ∃ reply t', r.outcome config now t = (t', .ok reply) ∧ Effect config now t r reply t' := by
  have hcases : (∃ e, r.outcome config now t = (t, .error e)) ∨
      ∃ reply t', r.outcome config now t = (t', .ok reply) ∧ Effect config now t r reply t' := by
    cases r with
    | openAccount user product currency => exact outcome_openAccount user product currency
    | deposit user id amount => exact outcome_deposit user id amount
    | transfer r => exact outcome_transfer r
    | close user id => exact outcome_close user id
    | accounts user => exact .inr ⟨_, _, rfl, .accounts user⟩
    | account user id =>
        have hlookup := Work.exec_ask_ownedAccount (u := .closed) (t := t) now user id
          fun row => Work.succeed (Reply.account row)
        rcases hlookup with ⟨-, hfailed⟩ | ⟨row, hrow, howner, hexec⟩
        · exact .inl ⟨_, hfailed⟩
        · exact .inr ⟨_, _, congrArg Prod.snd hexec, .account hrow howner⟩
    | transactions filter => exact .inr ⟨_, _, rfl, .transactions rfl⟩
    | transaction id =>
        cases hentry : t.transaction id with
        | error e =>
            have hperform : UnitOfWork.closed.perform now t (.transaction id) =
                (.closed, t, .error e) := by rw [UnitOfWork.perform, hentry]
            exact .inl ⟨_, congrArg Prod.snd (Work.exec_ask_error hperform)⟩
        | ok entry =>
            have hperform : UnitOfWork.closed.perform now t (.transaction id) =
                (.closed, t, .ok entry) := by rw [UnitOfWork.perform, hentry]
            exact .inr ⟨_, _, congrArg Prod.snd (Work.exec_ask_ok hperform), .transaction hentry⟩
  rcases hcases with ⟨e, hfailed⟩ | hdone
  · refine .inl ⟨e, ?_, hfailed⟩
    have hproper : Work.Proper (r.outcome config now t).2 := (r.orderly_program config).proper_exec
    exact hproper e (congrArg Prod.snd hfailed)
  · exact .inr hdone

theorem effect_of_outcome {r : Request} {reply : Reply} {t' : Tables}
    (h : r.outcome config now t = (t', .ok reply)) : Effect config now t r reply t' := by
  rcases r.outcome_cases config now t with ⟨e, -, hfailed⟩ | ⟨reply', t₁, hdone, heffect⟩
  · rw [hfailed] at h
    cases h
  · rw [hdone] at h
    cases h
    exact heffect

theorem outcome_persists (r : Request) (config : Config) (now : Timestamp) (t : Tables) :
    t.Persists (r.outcome config now t).1 := by
  rcases r.outcome_cases config now t with ⟨e, -, houtcome⟩ | ⟨reply, t', houtcome, heffect⟩
  · rw [houtcome]
    exact Tables.Persists.refl t
  · rw [houtcome]
    exact heffect.persists

end Request

end Ledger
