import Ledger.Proofs.Tables.Changes

/-!
The version of an account counts its log rows: every log row comes with one write of each account
that it names, and the only other write is the one that closes an account, after which there are no
more.
-/

namespace Ledger

/-- Every version counts the log rows that name the account, and its closing. -/
def Tables.Counted (t : Tables) : Prop :=
  ∀ id row, t.find? id = some row →
    row.version = (t.history id).length + if row.status = .closed then 1 else 0

variable {config : Config} {now : Timestamp} {t t' : Tables} {r : Request} {reply : Reply}
  {id : AccountId} {row row' : Account} {entries : List Transaction}

namespace Account.Change

theorem version (h : row.Change now t r row' entries) :
    row'.version + (if row.status = .closed then 1 else 0) =
      row.version + entries.length + if row'.status = .closed then 1 else 0 := by
  cases h with
  | untouched => rfl
  | deposited _ active | debited _ _ active | credited _ _ active =>
      simp [Tables.stamp, active]
  | closed _ active => simp [Tables.stamp, active]

theorem eq_of_closed (h : row.Change now t r row' entries) (hclosed : row.status = .closed) :
    row' = row ∧ entries = [] := by
  cases h with
  | untouched => exact ⟨rfl, rfl⟩
  | deposited _ active | debited _ _ active | credited _ _ active =>
      rw [hclosed] at active
      cases active
  | closed _ active => exact absurd hclosed active

end Account.Change

namespace Effect

theorem counted (h : Effect config now t r reply t') (ht : t.WellFormed) (hcounted : t.Counted) :
    t'.Counted := by
  intro id row' hrow'
  rcases h.exists_before hrow' with ⟨row, hrow⟩ | ⟨user, product, currency, new, hnew, rfl, rfl⟩
  · obtain ⟨found, entries, hfound, hhistory, hchange⟩ := h.change ht hrow
    obtain rfl := Option.some.inj (hfound.symm.trans hrow')
    have hversion := hchange.version
    have hbefore := hcounted id row hrow
    rw [hhistory, List.length_append]
    omega
  · have hactive : (t.newRow now new).status ≠ .closed := by
      rw [show (t.newRow now new).status = .active from (NewAccount.accepted_ofInput hnew).active]
      decide
    obtain rfl : t.nextId = id := Tables.id_of_find? hrow'
    rw [show (t.insert now new).history t.nextId = [] from ht.history_nextId, if_neg hactive]
    rfl

theorem closed_stays (h : Effect config now t r reply t') (ht : t.WellFormed)
    (hrow : t.find? id = some row) (hclosed : row.status = .closed) :
    t'.find? id = some row ∧ t'.history id = t.history id := by
  obtain ⟨found, entries, hfound, hhistory, hchange⟩ := h.change ht hrow
  obtain ⟨rfl, rfl⟩ := hchange.eq_of_closed hclosed
  exact ⟨hfound, hhistory.trans (List.append_nil _)⟩

end Effect

namespace Concurrent

variable {w w' : World} {actions : List Action}

theorem World.Reachable.counted (h : w.Reachable config) : w.store.tables.Counted := by
  have hboth : w.store.tables.WellFormed ∧ w.store.tables.Counted := by
    apply h.induction (P := fun t => t.WellFormed ∧ t.Counted)
    · exact ⟨Tables.wellFormed_empty, fun _ _ hrow => nomatch hrow⟩
    · rintro now t r reply t' ⟨ht, hcounted⟩ heffect
      exact ⟨heffect.wellFormed ht, heffect.counted ht hcounted⟩
  exact hboth.2

theorem World.Sound.closed_stays (hw : w.Sound config true) (ht : w.store.tables.WellFormed)
    (hrun : w.run config actions = some w') (hrow : w.store.tables.find? id = some row)
    (hclosed : row.status = .closed) :
    w'.store.tables.find? id = some row ∧
      w'.store.tables.history id = w.store.tables.history id := by
  let Stays (t : Tables) : Prop := t.WellFormed ∧ t.find? id = some row ∧
    t.history id = w.store.tables.history id
  suffices hstays : Stays w'.store.tables from hstays.2
  apply hw.run_induction ?_ (P := Stays) ⟨ht, hrow, rfl⟩ hrun
  rintro now t r reply t' ⟨ht, hrow, hhistory⟩ heffect
  obtain ⟨hrow', hhistory'⟩ := heffect.closed_stays ht hrow hclosed
  exact ⟨heffect.wellFormed ht, hrow', hhistory'.trans hhistory⟩

/-- In every reachable state the version of an account is the number of log rows that name it, one
more if it is closed; and once it is closed, neither its row nor the log rows that name it change,
whatever calls are made and however they are interleaved. -/
theorem versions_count_history (h : w.Reachable config) :
    (∀ row ∈ w.store.tables.accounts,
      row.version = (w.store.tables.log.filter (·.names row.id)).length +
        if row.status = .closed then 1 else 0) ∧
    ∀ actions w', w.run config actions = some w' →
      ∀ row ∈ w.store.tables.accounts, row.status = .closed →
        w'.store.tables.find? row.id = some row ∧
          w'.store.tables.log.filter (·.names row.id) =
            w.store.tables.log.filter (·.names row.id) := by
  have ht := wellFormed_of_reachable h
  constructor
  · intro row hrow
    exact h.counted row.id row (ht.find?_of_mem hrow)
  · intro actions w' hrun row hrow hclosed
    exact h.sound.closed_stays ht hrun (ht.find?_of_mem hrow) hclosed

/-- An account is paid into, pays all of it out again and is closed. -/
def emptied : List Action :=
  ([.invoke (.openAccount 1 "savings" "usd"), .move 0 (.perform .epoch),
      .invoke (.openAccount 2 "savings" "usd"), .move 1 (.perform .epoch),
      .invoke (.deposit 1 1 (.cents 450))] : List Action) ++
    (List.replicate 6 (.move 2 (.perform .epoch)) : List Action) ++
    ([.move 2 .release, .invoke (.transfer ⟨1, 1, 2, .cents 450, "", .external⟩)] :
      List Action) ++
    (List.replicate 9 (.move 3 (.perform .epoch)) : List Action) ++
    ([.move 3 .release, .invoke (.close 1 1)] : List Action) ++
    (List.replicate 5 (.move 4 (.perform .epoch)) : List Action)

/-- A deposit that comes too late. -/
def lateDeposit : List Action :=
  ([.move 4 .release, .invoke (.deposit 1 1 (.cents 350))] : List Action) ++
    (List.replicate 4 (.move 5 (.perform .epoch)) : List Action)

theorem versions_count_history_closed :
    ∃ w w' row, (World.start {}).run .standard emptied = some w ∧
      w.run .standard lateDeposit = some w' ∧ row ∈ w.store.tables.accounts ∧ row.id = 1 ∧
      row.version = 3 ∧ row.status = .closed ∧
      (w.store.tables.log.filter (·.names row.id)).length = 2 ∧
      w'.store.tables.find? row.id = some row ∧
      w'.store.tables.log.filter (·.names row.id) =
        w.store.tables.log.filter (·.names row.id) := by
  have hemptied : ((World.start {}).run .standard emptied).bind (fun w =>
      (w.store.tables.find? 1).map fun row => (row.version, row.status)) = some (3, .closed) := by
    decide +kernel
  have hlate : ((World.start {}).run .standard (emptied ++ lateDeposit)).isSome = true := by
    decide +kernel
  obtain ⟨w, hrun, hrest⟩ := Option.bind_eq_some_iff.mp hemptied
  obtain ⟨row, hrow, hseen⟩ := Option.map_eq_some_iff.mp hrest
  obtain ⟨hversion, hclosed⟩ := Prod.mk.inj hseen
  obtain ⟨w', hrun'⟩ := Option.isSome_iff_exists.mp hlate
  rw [World.run_append, hrun, Option.bind_some] at hrun'
  have hmem := Tables.mem_of_find? hrow
  obtain ⟨hcounts, hstays⟩ := versions_count_history ⟨emptied, hrun⟩
  have hcount := hcounts row hmem
  rw [hversion, if_pos hclosed] at hcount
  refine ⟨w, w', row, hrun, hrun', hmem, Tables.id_of_find? hrow, hversion, hclosed, by omega, ?_⟩
  exact hstays lateDeposit w' hrun' row hmem hclosed

end Concurrent

end Ledger
