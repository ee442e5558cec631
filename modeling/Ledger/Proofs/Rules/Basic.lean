import Ledger.Proofs.Tables.WellFormed

/-!
What a call decides, as a list of requirements. A call that meets all of them is carried out; any
other one gets the error of the first that it does not meet, and leaves the ledger as it is.
-/

namespace Ledger

/-- What a request has to meet, and its error where it does not. -/
structure Requirement where
  holds : Prop
  error : LedgerError

/-- The error of the first requirement that does not hold. -/
inductive FirstUnmet : List Requirement → LedgerError → Prop
  | here {holds : Prop} {error : LedgerError} {rest : List Requirement} (unmet : ¬holds) :
      FirstUnmet (⟨holds, error⟩ :: rest) error
  | later {met : Requirement} {rest : List Requirement} {error : LedgerError} (holds : met.holds)
      (unmet : FirstUnmet rest error) : FirstUnmet (met :: rest) error

namespace FirstUnmet

variable {requirements : List Requirement} {e e' : LedgerError}

theorem exists_unmet (h : FirstUnmet requirements e) :
    ∃ q ∈ requirements, q.error = e ∧ ¬q.holds := by
  induction h with
  | here unmet => exact ⟨_, List.mem_cons_self, rfl, unmet⟩
  | later _ _ ih =>
      obtain ⟨q, hmem, hq⟩ := ih
      exact ⟨q, List.mem_cons_of_mem _ hmem, hq⟩

theorem not_all (h : FirstUnmet requirements e) : ¬∀ q ∈ requirements, q.holds := by
  obtain ⟨q, hmem, -, hunmet⟩ := h.exists_unmet
  exact fun hall => hunmet (hall q hmem)

theorem unique (h : FirstUnmet requirements e) (h' : FirstUnmet requirements e') : e = e' := by
  induction h with
  | here unmet =>
      cases h' with
      | here => rfl
      | later holds => exact absurd holds unmet
  | later holds _ ih =>
      cases h' with
      | here unmet => exact absurd holds unmet
      | later _ unmet => exact ih unmet

end FirstUnmet

/-- The later tables have the given rows where the earlier ones have others of their ids, and else
the same accounts. -/
structure Tables.Rewrites (t t' : Tables) (rows : List Account) : Prop where
  ids : t'.accounts.map (·.id) = t.accounts.map (·.id)
  written : ∀ row ∈ rows, t'.find? row.id = some row
  kept : ∀ id, id ∉ rows.map (·.id) → t'.find? id = t.find? id

namespace Tables

variable {t : Tables} {old old' : Account}

theorem rewrites_update (now : Timestamp) (row : Account) (h : t.find? row.id = some old) :
    t.Rewrites (t.update now row) [stamp now row] where
  ids := t.ids_update now row
  written := by
    rw [List.forall_mem_singleton, id_stamp, find?_update now row h, if_pos rfl]
  kept id hid := find?_update_of_ne row (by simpa using hid)

theorem rewrites_update_update (now : Timestamp) (row row' : Account) (hne : row.id ≠ row'.id)
    (h : t.find? row.id = some old) (h' : t.find? row'.id = some old') :
    t.Rewrites ((t.update now row).update now row') [stamp now row, stamp now row'] where
  ids := by
    rw [ids_update, ids_update]
  written := by
    have hfirst : ((t.update now row).update now row').find? row.id = some (stamp now row) := by
      rw [find?_update_of_ne row' hne, find?_update now row h, if_pos rfl]
    have hsecond :
        ((t.update now row).update now row').find? row'.id = some (stamp now row') := by
      have hstill : (t.update now row).find? row'.id = some old' := by
        rw [find?_update_of_ne row hne.symm, h']
      rw [find?_update now row' hstill, if_pos rfl]
    exact List.forall_mem_cons.mpr ⟨hfirst, List.forall_mem_singleton.mpr hsecond⟩
  kept id hid := by
    simp only [List.map_cons, List.map_nil, id_stamp, List.mem_cons, List.not_mem_nil, or_false,
      not_or] at hid
    rw [find?_update_of_ne row' hid.2, find?_update_of_ne row hid.1]

theorem Rewrites.enter {t' : Tables} {rows : List Account} (h : t.Rewrites t' rows)
    (now : Timestamp) (new : NewTransaction) : t.Rewrites (t'.enter now new) rows :=
  ⟨h.ids, h.written, h.kept⟩

end Tables

/-- What comes of a request in the given tables: it is refused for the first requirement that it
does not meet, or it meets them all and is carried out. -/
def Request.Decided (r : Request) (config : Config) (now : Timestamp) (t : Tables)
    (requirements : List Requirement) (Done : Reply → Tables → Prop) : Prop :=
  (∃ e, FirstUnmet requirements e ∧ r.outcome config now t = (t, .error e)) ∨
    (∀ q ∈ requirements, q.holds) ∧
      ∃ reply t', r.outcome config now t = (t', .ok reply) ∧ Done reply t'

/-- A call of a service succeeds if and only if its request meets all requirements, and then the
request is carried out; otherwise it fails with the error of the first one that it does not meet,
and the service stays as it is. -/
structure Service.Decides (s : Service) (now : Timestamp) (r : Request)
    (requirements : List Requirement) (Done : Reply → Tables → Prop) : Prop where
  accepts : (∃ reply, (s.call now r).2 = .ok reply) ↔ ∀ q ∈ requirements, q.holds
  refuses : ∀ e, (s.call now r).2 = .error e ↔ FirstUnmet requirements e
  unchanged : ∀ e, (s.call now r).2 = .error e → (s.call now r).1 = s
  carried : ∀ reply, (s.call now r).2 = .ok reply →
    ∃ t', (s.call now r).1.store = { tables := t' } ∧ Done reply t'

theorem Request.Decided.decides {s : Service} {now : Timestamp} {t : Tables} {r : Request}
    {requirements : List Requirement} {Done : Reply → Tables → Prop}
    (h : r.Decided s.config now t requirements Done) (haccepts : s.Accepts)
    (hstore : s.store = { tables := t }) : s.Decides now r requirements Done := by
  rcases h with ⟨e, hunmet, houtcome⟩ | ⟨hall, reply, t', houtcome, hdone⟩
  · have hcall : s.call now r = (s, .error e) := by
      rw [Service.call_eq hstore, houtcome]
      simp only [← hstore]
    constructor
    · constructor
      · rintro ⟨reply, hreply⟩
        rw [hcall] at hreply
        cases hreply
      · intro hall
        exact absurd hall hunmet.not_all
    · intro e'
      rw [hcall]
      constructor
      · rintro ⟨⟩
        exact hunmet
      · intro hunmet'
        rw [hunmet.unique hunmet']
    · intro _ _
      rw [hcall]
    · intro reply hreply
      rw [hcall] at hreply
      cases hreply
  · obtain ⟨s', hcall, hstore', -, -⟩ := haccepts.call hstore now r
    rw [houtcome] at hcall hstore'
    constructor
    · exact ⟨fun _ => hall, fun _ => ⟨reply, congrArg Prod.snd hcall⟩⟩
    · intro e
      rw [hcall]
      constructor
      · rintro ⟨⟩
      · intro hunmet
        exact absurd hall hunmet.not_all
    · intro e he
      rw [hcall] at he
      cases he
    · intro reply' hreply
      rw [hcall] at hreply ⊢
      cases hreply
      exact ⟨t', hstore', hdone⟩

/-- A service on the given tables that publishes inside its calls. -/
def Service.inline (t : Tables) : Service where
  config := .standard
  store := { tables := t }
  relay := none

theorem Service.accepts_inline (t : Tables) : (inline t).Accepts :=
  ⟨rfl, rfl⟩

end Ledger
