import Ledger.Proofs.Rules.Account
import Ledger.Proofs.Rules.Transfer
import Ledger.Proofs.Store.Staged

/-!
Calls on different accounts. What a call writes and answers depends on the rows that it names and on
nothing else in the tables, so that calls that name different accounts can change places.
-/

namespace Ledger

namespace Request

/-- Whether a request moves money or closes an account. -/
def isOperation : Request → Bool
  | deposit .. | transfer _ | close .. => true
  | _ => false

/-- The ids of the accounts that an operation names. -/
def named : Request → List AccountId
  | deposit _ id _ | close _ id => [id]
  | transfer r => [r.source, r.destination]
  | _ => []

/-- What an operation has to meet. -/
def requirements (t : Tables) : Request → List Requirement
  | deposit user id asked => t.depositRequirements user id asked
  | transfer r => r.requirements t
  | close user id => t.closeRequirements user id
  | _ => []

end Request

/-- A row without the time of its last write. -/
def Account.undated (row : Account) : Account :=
  { row with updatedAt := .epoch }

/-- An entry without its id and time. -/
def Transaction.undated (entry : Transaction) : Transaction :=
  { entry with id := 0, createdAt := .epoch }

/-- What an operation answers, without the id of its entry and without times. -/
def Reply.undated : Reply → Reply
  | deposited row entry => .deposited row.undated entry.undated
  | transferred entry => .transferred entry.undated
  | reply => reply

namespace Tables

variable {t : Tables} {now now' : Timestamp} {rows : List Account} {news : List NewTransaction}
  {id : AccountId} {old old' : Account}

/-- A row after some rows have been written. -/
def rewrite (now : Timestamp) (rows : List Account) (old : Account) : Account :=
  rows.foldl (fun old row => if old.id = row.id then stamp now row else old) old

/-- The tables after some rows have been written and some entries made. -/
def carry (t : Tables) (now : Timestamp) (rows : List Account) (news : List NewTransaction) :
    Tables :=
  (rows.foldl (fun t row => t.update now row) t).enterAll now news

theorem find?_carry (h : id ∉ rows.map (·.id)) : (t.carry now rows news).find? id = t.find? id := by
  rw [carry, enterAll, UnitOfWork.find?_foldl_enter]
  apply UnitOfWork.find?_foldl_replace
  intro row hrow hid
  exact h (List.mem_map.mpr ⟨row, hrow, hid⟩)

theorem accounts_carry (t : Tables) (now : Timestamp) (rows : List Account)
    (news : List NewTransaction) :
    (t.carry now rows news).accounts = t.accounts.map (rewrite now rows) := by
  rw [carry, enterAll, accounts_foldl_enter]
  induction rows generalizing t with
  | nil => exact (List.map_id _).symm
  | cons row rest ih =>
      rw [List.foldl_cons, ih]
      exact List.map_map

theorem log_carry (t : Tables) (now : Timestamp) (rows : List Account)
    (news : List NewTransaction) :
    (t.carry now rows news).log = t.log ++ t.newEntries now news := by
  have hlog : (rows.foldl (fun t row => t.update now row) t).log = t.log :=
    log_foldl_replace rows now t
  rw [carry, enterAll, log_foldl_enter, newEntries, newEntries, hlog]
  simp only [newEntry]

theorem id_rewrite (now : Timestamp) (rows : List Account) (old : Account) :
    (rewrite now rows old).id = old.id := by
  induction rows generalizing old with
  | nil => rfl
  | cons row rest ih =>
      rw [rewrite, List.foldl_cons]
      refine (ih _).trans ?_
      show (if old.id = row.id then stamp now row else old).id = old.id
      split
      · rename_i hid
        exact hid.symm
      · rfl

theorem rewrite_of_not_mem (h : old.id ∉ rows.map (·.id)) : rewrite now rows old = old := by
  induction rows with
  | nil => rfl
  | cons row rest ih =>
      rw [List.map_cons, List.mem_cons, not_or] at h
      rw [rewrite, List.foldl_cons, if_neg h.1]
      exact ih h.2

theorem undated_rewrite (now now' : Timestamp) (rows : List Account)
    (h : old.undated = old'.undated) :
    (rewrite now rows old).undated = (rewrite now' rows old').undated := by
  have hid : old.undated.id = old'.undated.id := congrArg Account.id h
  change old.id = old'.id at hid
  induction rows generalizing old old' with
  | nil => exact h
  | cons row rest ih =>
      rw [rewrite, rewrite, List.foldl_cons, List.foldl_cons, hid]
      split
      · exact ih rfl rfl
      · exact ih h hid

theorem rewrite_comm {rows' : List Account} (h : ∀ id ∈ rows.map (·.id), id ∉ rows'.map (·.id))
    (now₁ now₂ now₃ now₄ : Timestamp) (old : Account) :
    (rewrite now₂ rows' (rewrite now₁ rows old)).undated =
      (rewrite now₄ rows (rewrite now₃ rows' old)).undated := by
  by_cases hmem : old.id ∈ rows.map (·.id)
  · have hother : old.id ∉ rows'.map (·.id) := h _ hmem
    have hwritten : (rewrite now₁ rows old).id ∉ rows'.map (·.id) := by rwa [id_rewrite]
    rw [rewrite_of_not_mem hwritten, rewrite_of_not_mem hother]
    exact undated_rewrite now₁ now₄ rows rfl
  · have hwritten : (rewrite now₃ rows' old).id ∉ rows.map (·.id) := by rwa [id_rewrite]
    rw [rewrite_of_not_mem hmem, rewrite_of_not_mem hwritten]
    exact undated_rewrite now₂ now₃ rows' rfl

end Tables

namespace Effect

variable {config config' : Config} {now now' : Timestamp} {t t' s s' : Tables} {r : Request}
  {reply reply' : Reply}

theorem carries (h : Effect config now t r reply t') (h' : Effect config' now' s r reply' s')
    (hoperation : r.isOperation = true) (hagree : ∀ id ∈ r.named, s.find? id = t.find? id) :
    ∃ rows news, t' = t.carry now rows news ∧ s' = s.carry now' rows news ∧
      reply'.undated = reply.undated ∧ (∀ id ∈ rows.map (·.id), id ∈ r.named) ∧
      news.length ≤ 1 := by
  have hsame : ∀ {id row row'}, id ∈ r.named → t.find? id = some row → s.find? id = some row' →
      row = row' := by
    intro id row row' hid found found'
    exact Option.some.inj (found.symm.trans ((hagree id hid).symm.trans found'))
  cases h with
  | @deposited user id asked amount balance row positive found owned active scaled credited =>
      cases h' with
      | deposited _ found' _ _ scaled' credited' =>
          obtain rfl := hsame (List.mem_singleton.mpr rfl) found found'
          cases scaled.symm.trans scaled'
          cases credited.symm.trans credited'
          refine ⟨[{ row with balance }], [.ofDeposit user id amount], rfl, rfl, rfl, ?_, le_rfl⟩
          rw [List.map_singleton, Tables.id_of_find? found]
          exact fun _ h => h
  | @transferred q source destination amount debited credited _ _ from_found _ to_found _ _ scaled
      _ _ _ debit credit =>
      cases h' with
      | transferred _ _ from_found' _ to_found' _ _ scaled' _ _ _ debit' credit' =>
          obtain rfl := hsame (by simp [Request.named]) from_found from_found'
          obtain rfl := hsame (by simp [Request.named]) to_found to_found'
          cases scaled.symm.trans scaled'
          cases debit.symm.trans debit'
          cases credit.symm.trans credit'
          refine ⟨[{ source with balance := debited }, { destination with balance := credited }],
            [q.entry amount], rfl, rfl, rfl, ?_, le_rfl⟩
          simp only [List.map_cons, List.map_nil, Tables.id_of_find? from_found,
            Tables.id_of_find? to_found]
          exact fun _ h => h
  | @closed user id row found _ active =>
      cases h' with
      | closed found' =>
          obtain rfl := hsame (List.mem_singleton.mpr rfl) found found'
          refine ⟨[{ row with status := .closed }], [], rfl, rfl, rfl, ?_, Nat.zero_le 1⟩
          rw [List.map_singleton, Tables.id_of_find? found]
          exact fun _ h => h
      | stayed found' _ closed =>
          obtain rfl := hsame (List.mem_singleton.mpr rfl) found found'
          exact absurd closed active
  | @stayed user id row found _ closed =>
      cases h' with
      | closed found' _ active =>
          obtain rfl := hsame (List.mem_singleton.mpr rfl) found found'
          exact absurd closed active
      | stayed => exact ⟨[], [], rfl, rfl, rfl, List.forall_mem_nil _, Nat.zero_le 1⟩
  | _ => cases hoperation

end Effect

namespace Request

variable {config : Config} {now now' : Timestamp} {t s : Tables} {r : Request}

theorem requirements_congr (hagree : ∀ id ∈ r.named, s.find? id = t.find? id) :
    r.requirements s = r.requirements t := by
  cases r with
  | deposit user id asked =>
      simp only [requirements, Tables.depositRequirements,
        hagree id (List.mem_singleton.mpr rfl)]
  | transfer q =>
      simp only [requirements, TransferRequest.requirements,
        hagree q.source (by simp [named]), hagree q.destination (by simp [named])]
  | close user id =>
      simp only [requirements, Tables.closeRequirements, hagree id (List.mem_singleton.mpr rfl)]
  | _ => rfl

theorem exists_decided (ht : t.WellFormed) (hoperation : r.isOperation = true) (config : Config)
    (now : Timestamp) : ∃ Done, r.Decided config now t (r.requirements t) Done := by
  cases r with
  | deposit user id asked => exact ⟨_, decided_deposit ht user id asked⟩
  | transfer q => exact ⟨_, decided_transfer ht q⟩
  | close user id => exact ⟨_, decided_close user id⟩
  | _ => cases hoperation

/-- On tables with the same named rows, an operation writes the same rows, makes the same entries
and has the same answer. -/
theorem exists_carry (ht : t.WellFormed) (hs : s.WellFormed) (hoperation : r.isOperation = true)
    (hagree : ∀ id ∈ r.named, s.find? id = t.find? id) (config : Config)
    (now now' : Timestamp) :
    ∃ rows news, (r.outcome config now t).1 = t.carry now rows news ∧
      (r.outcome config now' s).1 = s.carry now' rows news ∧
      (r.outcome config now' s).2.map Reply.undated =
        (r.outcome config now t).2.map Reply.undated ∧
      (∀ id ∈ rows.map (·.id), id ∈ r.named) ∧ news.length ≤ 1 := by
  obtain ⟨Done, hdone⟩ := exists_decided ht hoperation config now
  obtain ⟨Done', hdone'⟩ := exists_decided hs hoperation config now'
  rw [requirements_congr hagree] at hdone'
  rcases hdone with ⟨e, hunmet, houtcome⟩ | ⟨hmet, reply, t', houtcome, -⟩
  · rcases hdone' with ⟨e', hunmet', houtcome'⟩ | ⟨hmet', -⟩
    · rw [houtcome, houtcome', hunmet.unique hunmet']
      exact ⟨[], [], rfl, rfl, rfl, List.forall_mem_nil _, Nat.zero_le 1⟩
    · exact absurd hmet' hunmet.not_all
  · rcases hdone' with ⟨e', hunmet', -⟩ | ⟨-, reply', s', houtcome', -⟩
    · exact absurd hmet hunmet'.not_all
    · obtain ⟨rows, news, hcarry, hcarry', hreply, hrows, hnews⟩ :=
        (effect_of_outcome houtcome).carries (effect_of_outcome houtcome') hoperation hagree
      rw [houtcome, houtcome']
      exact ⟨rows, news, hcarry, hcarry', congrArg Except.ok hreply, hrows, hnews⟩

theorem outcome_wellFormed (ht : t.WellFormed) (r : Request) (config : Config) (now : Timestamp) :
    (r.outcome config now t).1.WellFormed := by
  rcases r.outcome_cases config now t with ⟨e, -, houtcome⟩ | ⟨reply, t', houtcome, heffect⟩
  · rw [houtcome]
    exact ht
  · rw [houtcome]
    exact heffect.wellFormed ht

theorem find?_outcome (ht : t.WellFormed) (hoperation : r.isOperation = true) (config : Config)
    (now : Timestamp) {id : AccountId} (hid : id ∉ r.named) :
    (r.outcome config now t).1.find? id = t.find? id := by
  obtain ⟨rows, news, hcarry, -, -, hrows, -⟩ :=
    exists_carry ht ht hoperation (fun _ _ => rfl) config now now
  rw [hcarry, Tables.find?_carry fun hmem => hid (hrows id hmem)]

end Request

namespace Service

/-- In every state that calls can lead to, two operations that name different accounts can be called
in either order: each of them has the same answer, the accounts are the same in the end, up to the
times of their last writes, and the log gets the same entries, in the order of the calls. -/
theorem disjoint_operations_commute {config : Config} {w : Concurrent.World} {s : Service}
    {a b : Request} (h : w.Reachable config) (haccepts : s.Accepts)
    (hstore : s.store = { tables := w.store.tables }) (ha : a.isOperation = true)
    (hb : b.isOperation = true) (hdisjoint : ∀ id ∈ a.named, id ∉ b.named)
    (now later now' later' : Timestamp) :
    let t := w.store.tables
    let first := s.call now a
    let second := first.1.call later b
    let first' := s.call now' b
    let second' := first'.1.call later' a
    second'.2.map Reply.undated = first.2.map Reply.undated ∧
      second.2.map Reply.undated = first'.2.map Reply.undated ∧
      second'.1.store.tables.accounts.map Account.undated =
        second.1.store.tables.accounts.map Account.undated ∧
      ∃ newsA newsB, newsA.length ≤ 1 ∧ newsB.length ≤ 1 ∧
        second.1.store.tables.log =
          t.log ++ t.newEntries now newsA ++ first.1.store.tables.newEntries later newsB ∧
        second'.1.store.tables.log =
          t.log ++ t.newEntries now' newsB ++ first'.1.store.tables.newEntries later' newsA := by
  intro t first second first' second'
  have ht : t.WellFormed := wellFormed_of_reachable h
  obtain ⟨s₁, hfirst, hstore₁, hconfig₁, haccepts₁⟩ := haccepts.call hstore now a
  obtain ⟨s₂, hsecond, hstore₂, -, -⟩ := haccepts₁.call hstore₁ later b
  obtain ⟨s₃, hfirst', hstore₃, hconfig₃, haccepts₃⟩ := haccepts.call hstore now' b
  obtain ⟨s₄, hsecond', hstore₄, -, -⟩ := haccepts₃.call hstore₃ later' a
  rw [hconfig₁] at hsecond hstore₂
  rw [hconfig₃] at hsecond' hstore₄
  obtain ⟨rowsA, newsA, hcarry₁, hcarry₄, hanswerA, hrowsA, hnewsA⟩ :=
    Request.exists_carry ht (Request.outcome_wellFormed ht b s.config now') ha
      (fun id hid => Request.find?_outcome ht hb s.config now' (hdisjoint id hid)) s.config now
      later'
  obtain ⟨rowsB, newsB, hcarry₃, hcarry₂, hanswerB, hrowsB, hnewsB⟩ :=
    Request.exists_carry ht (Request.outcome_wellFormed ht a s.config now) hb
      (fun id hid => Request.find?_outcome ht ha s.config now fun hmem => hdisjoint id hmem hid)
      s.config now' later
  have hrows : ∀ id ∈ rowsA.map (·.id), id ∉ rowsB.map (·.id) :=
    fun id hid hmem => hdisjoint id (hrowsA id hid) (hrowsB id hmem)
  simp only [second', second, first', first, hfirst, hsecond, hfirst', hsecond', hstore₁, hstore₂,
    hstore₃, hstore₄]
  refine ⟨hanswerA, hanswerB, ?_, newsA, newsB, hnewsA, hnewsB, ?_, ?_⟩
  · rw [hcarry₄, hcarry₂, hcarry₁, hcarry₃]
    simp only [Tables.accounts_carry, List.map_map]
    exact List.map_congr_left fun old _ =>
      (Tables.rewrite_comm hrows now later now' later' old).symm
  · rw [hcarry₂, Tables.log_carry, hcarry₁, Tables.log_carry]
  · rw [hcarry₄, Tables.log_carry, hcarry₃, Tables.log_carry]

/-- The first of two users opens another account. -/
def threeAccounts : List Concurrent.Action :=
  Concurrent.twoUsers ++
    ([.invoke (.openAccount 3 "checking" "usd"), .move 3 (.perform .epoch)] :
      List Concurrent.Action)

/-- A gift between the first two accounts, and a deposit into the third one. -/
theorem disjoint_operations_commute_gift :
    ∃ w, (Concurrent.World.start {}).run .standard threeAccounts = some w ∧
      let s := inline w.store.tables
      let gift := Request.transfer Concurrent.gift
      let pay := Request.deposit 3 3 (.cents 200)
      let given := s.call .epoch gift
      let paid := s.call .epoch pay
      s.Accepts ∧ gift.isOperation = true ∧ pay.isOperation = true ∧
        (∀ id ∈ gift.named, id ∉ pay.named) ∧ given.2.isOk = true ∧ paid.2.isOk = true ∧
        (paid.1.call .epoch gift).2.map Reply.undated = given.2.map Reply.undated ∧
        (given.1.call .epoch pay).2.map Reply.undated = paid.2.map Reply.undated ∧
        (paid.1.call .epoch gift).1.store.tables.accounts.map Account.undated =
          (given.1.call .epoch pay).1.store.tables.accounts.map Account.undated := by
  have hseen : ((Concurrent.World.start {}).run .standard threeAccounts).map (fun w =>
      (((inline w.store.tables).call .epoch (.transfer Concurrent.gift)).2.isOk,
        ((inline w.store.tables).call .epoch (.deposit 3 3 (.cents 200))).2.isOk)) =
      some (true, true) := by
    decide +kernel
  obtain ⟨w, hrun, hseen⟩ := Option.map_eq_some_iff.mp hseen
  obtain ⟨hgiven, hpaid⟩ := Prod.mk.inj hseen
  have haccepts := accepts_inline w.store.tables
  have hdisjoint : ∀ id ∈ (Request.transfer Concurrent.gift).named,
      id ∉ (Request.deposit 3 3 (.cents 200)).named := by
    decide
  obtain ⟨hgift, hpay, hrows, -⟩ :=
    disjoint_operations_commute ⟨_, hrun⟩ haccepts rfl rfl rfl hdisjoint .epoch .epoch .epoch .epoch
  exact ⟨w, hrun, haccepts, rfl, rfl, hdisjoint, hgiven, hpaid, hgift, hpay, hrows⟩

end Service

end Ledger
