import Ledger.Store.Tables

namespace Ledger.Tables

variable {t t' : Tables} {id : AccountId} {row : Account}

theorem id_of_find? (h : t.find? id = some row) : row.id = id := by
  simpa using List.find?_some h

theorem mem_of_find? (h : t.find? id = some row) : row ∈ t.accounts :=
  List.mem_of_find?_eq_some h

theorem find?_of_mem (hids : (t.accounts.map (·.id)).Nodup) (h : row ∈ t.accounts) :
    t.find? row.id = some row := by
  unfold find?
  generalize t.accounts = rows at hids h ⊢
  induction rows with
  | nil => cases h
  | cons first rest ih =>
      obtain ⟨hfirst, hrest⟩ := List.nodup_cons.mp hids
      rcases List.mem_cons.mp h with rfl | hmem
      · simp
      · have hne : first.id ≠ row.id := fun hid =>
          hfirst (List.mem_map.mpr ⟨row, hmem, hid.symm⟩)
        rw [List.find?_cons_of_neg (by simpa using hne)]
        exact ih hrest hmem

theorem find?_eq_none_iff : t.find? id = none ↔ id ∉ t.accounts.map (·.id) := by
  simp [find?]

theorem account_of_find? (h : t.find? id = some row) : t.account id = .ok row := by
  simp [account, h]

theorem find?_of_account (h : t.account id = .ok row) : t.find? id = some row := by
  unfold account at h
  split at h
  · rename_i found hfound
    cases h
    exact hfound
  · cases h

theorem find?_of_ownedAccount {owner : UserId} (h : t.ownedAccount owner id = .ok row) :
    t.find? id = some row ∧ row.user = owner := by
  unfold ownedAccount at h
  split at h
  · rename_i found hfound
    split at h
    · rename_i howner
      cases h
      exact ⟨hfound, howner⟩
    · cases h
  · cases h

theorem ownedAccount_of_find? {owner : UserId} (h : t.find? id = some row)
    (howner : row.user = owner) : t.ownedAccount owner id = .ok row := by
  simp [ownedAccount, h, howner]

theorem ownedAccount_of_missing {owner : UserId}
    (h : ¬∃ row, t.find? id = some row ∧ row.user = owner) :
    t.ownedAccount owner id = .error (.notFound .account id) := by
  unfold ownedAccount
  split
  · rename_i row hrow
    exact if_neg fun howner => h ⟨row, hrow, howner⟩
  · rfl

@[simp] theorem log_replace (t : Tables) (row : Account) : (t.replace row).log = t.log :=
  rfl

@[simp] theorem log_enter (t : Tables) (now : Timestamp) (new : NewTransaction) :
    (t.enter now new).log = t.log ++ [t.newEntry now new] :=
  rfl

@[simp] theorem newEntry_replace (t : Tables) (row : Account) (now : Timestamp)
    (new : NewTransaction) : (t.replace row).newEntry now new = t.newEntry now new :=
  rfl

@[simp] theorem find?_enter (t : Tables) (now : Timestamp) (new : NewTransaction)
    (id : AccountId) : (t.enter now new).find? id = t.find? id :=
  rfl

theorem find?_replace (t : Tables) (row : Account) (id : AccountId) :
    (t.replace row).find? id =
      if id = row.id then (t.find? id).map fun _ => row else t.find? id := by
  unfold find? replace
  induction t.accounts with
  | nil => simp
  | cons old rest ih =>
      simp only [List.map_cons, List.find?_cons]
      by_cases hold : old.id = row.id
      · by_cases hid : id = row.id
        · simp [hold, hid]
        · have hrow : ¬row.id = id := fun h => hid h.symm
          simpa [hold, hid, hrow] using ih
      · by_cases hid : id = row.id
        · have hother : ¬old.id = id := fun h => hold (h.trans hid)
          simpa [hold, hid, hother] using ih
        · by_cases hother : old.id = id
          · simp [hid, hother]
          · simpa [hold, hid, hother] using ih

theorem find?_replace_self {old : Account} (h : t.find? row.id = some old) :
    (t.replace row).find? row.id = some row := by
  simp [find?_replace, h]

theorem find?_replace_of_ne (h : id ≠ row.id) : (t.replace row).find? id = t.find? id := by
  simp [find?_replace, h]

theorem find?_replace_isSome (t : Tables) (row : Account) (id : AccountId) :
    ((t.replace row).find? id).isSome = (t.find? id).isSome := by
  rw [find?_replace]
  split
  · exact Option.isSome_map
  · rfl

theorem ids_replace (t : Tables) (row : Account) :
    (t.replace row).accounts.map (·.id) = t.accounts.map (·.id) := by
  rw [replace, List.map_map]
  apply List.map_congr_left
  intro old _
  rw [Function.comp_apply]
  split
  · rename_i hid
    exact hid.symm
  · rfl

theorem replace_comm {row' : Account} (h : row.id ≠ row'.id) :
    (t.replace row).replace row' = (t.replace row').replace row := by
  simp only [replace, List.map_map, Tables.mk.injEq, and_true]
  refine List.map_congr_left ?_
  intro old _
  simp only [Function.comp_apply]
  by_cases hold : old.id = row.id
  · simp [hold, h]
  · by_cases hold' : old.id = row'.id
    · simp [hold', Ne.symm h]
    · simp [hold, hold']

theorem find?_insert (t : Tables) (now : Timestamp) (new : NewAccount) (id : AccountId) :
    (t.insert now new).find? id =
      (t.find? id).or (if t.nextId = id then some (t.newRow now new) else none) := by
  rw [find?, insert, List.find?_append, List.find?_singleton]
  simp only [decide_eq_true_iff]
  rfl

theorem find?_insert_of_find? (now : Timestamp) (new : NewAccount) (h : t.find? id = some row) :
    (t.insert now new).find? id = some row := by
  rw [find?_insert, h, Option.some_or]

@[simp] theorem id_stamp (now : Timestamp) (row : Account) : (stamp now row).id = row.id :=
  rfl

/-- Every row of the first tables is still there in the second, with its owner and its currency. -/
def Persists (t t' : Tables) : Prop :=
  ∀ id row, t.find? id = some row →
    ∃ row', t'.find? id = some row' ∧ row'.user = row.user ∧ row'.currency = row.currency

theorem Persists.refl (t : Tables) : t.Persists t :=
  fun _ row h => ⟨row, h, rfl, rfl⟩

theorem Persists.trans {t₁ t₂ t₃ : Tables} (h₁ : t₁.Persists t₂) (h₂ : t₂.Persists t₃) :
    t₁.Persists t₃ := by
  intro id row hrow
  obtain ⟨row₂, hrow₂, huser₂, hcurrency₂⟩ := h₁ id row hrow
  obtain ⟨row₃, hrow₃, huser₃, hcurrency₃⟩ := h₂ id row₂ hrow₂
  exact ⟨row₃, hrow₃, huser₃.trans huser₂, hcurrency₃.trans hcurrency₂⟩

theorem persists_insert (t : Tables) (now : Timestamp) (new : NewAccount) :
    t.Persists (t.insert now new) :=
  fun _ row h => ⟨row, find?_insert_of_find? now new h, rfl, rfl⟩

theorem persists_enter (t : Tables) (now : Timestamp) (new : NewTransaction) :
    t.Persists (t.enter now new) :=
  fun _ row h => ⟨row, h, rfl, rfl⟩

theorem persists_replace {old : Account} (h : t.find? row.id = some old)
    (huser : row.user = old.user) (hcurrency : row.currency = old.currency) :
    t.Persists (t.replace row) := by
  intro id found hfound
  by_cases hid : id = row.id
  · subst hid
    rw [h] at hfound
    cases hfound
    exact ⟨row, find?_replace_self h, huser, hcurrency⟩
  · exact ⟨found, by rw [find?_replace_of_ne hid, hfound], rfl, rfl⟩

end Ledger.Tables
