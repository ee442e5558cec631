import Ledger.Json.Basic
import Ledger.Proofs.Json.RoundTrip
import Mathlib.Data.List.Perm.Basic

/-!
The members of a record are looked up by their names. The order in which they stand does not matter,
and neither do members whose names the record does not have.
-/

namespace Ledger.Json

/-- The members of an object. -/
def members : Json → List Member
  | object members => members
  | _ => []

variable {name : String} {names : List String} {members members' : List Member} {value : Json}
  {n : Nat}

/-- Whether some members are the given ones and more with other names, in any order. -/
def Extends (names : List String) (members members' : List Member) : Prop :=
  ∃ extra : List Member, members'.Perm (members ++ extra) ∧
    ∀ member ∈ extra, ∃ name, member.1 = some name ∧ name ∉ names

section Lookup

@[simp] theorem valuesOf_nil (name : String) : valuesOf name [] = [] :=
  rfl

@[simp] theorem valuesOf_cons (name other : String) (value : Json) (members : List Member) :
    valuesOf name ((some other, value) :: members) =
      if other = name then value :: valuesOf name members else valuesOf name members := by
  by_cases h : other = name <;> simp [valuesOf, h]

theorem Extends.valuesOf_perm (h : Extends names members members') (hname : name ∈ names) :
    (valuesOf name members').Perm (valuesOf name members) := by
  obtain ⟨extra, hperm, hextra⟩ := h
  have hnone : extra.filter (·.1 = some name) = [] := by
    apply List.filter_eq_nil_iff.mpr
    intro member hmember
    obtain ⟨other, hother, hunknown⟩ := hextra member hmember
    rw [hother, decide_eq_true_eq, Option.some_inj]
    rintro rfl
    exact hunknown hname
  have hfilter := hperm.filter (·.1 = some name)
  rw [List.filter_append, hnone, List.append_nil] at hfilter
  exact hfilter.map _

theorem lookup_eq_of_perm (h : (valuesOf name members').Perm (valuesOf name members)) :
    required? name members' = required? name members ∧
      optional? name members' = optional? name members := by
  unfold required? optional?
  generalize valuesOf name members' = values' at h ⊢
  generalize valuesOf name members = values at h ⊢
  rcases values with _ | ⟨value, _ | ⟨second, values⟩⟩
  · simp [h.eq_nil]
  · simp [List.perm_singleton.mp h]
  · rcases values' with _ | ⟨value', _ | ⟨second', values'⟩⟩
    · simpa using h.length_eq
    · simpa using h.length_eq
    · simp

theorem Extends.required?_eq (h : Extends names members members') (hname : name ∈ names) :
    required? name members' = required? name members :=
  (lookup_eq_of_perm (h.valuesOf_perm hname)).1

theorem Extends.optional?_eq (h : Extends names members members') (hname : name ∈ names) :
    optional? name members' = optional? name members :=
  (lookup_eq_of_perm (h.valuesOf_perm hname)).2

theorem Extends.all_isSome (h : Extends names members members') :
    members'.all (·.1.isSome) = members.all (·.1.isSome) := by
  obtain ⟨extra, hperm, hextra⟩ := h
  have hnamed : extra.all (·.1.isSome) = true := by
    apply List.all_eq_true.mpr
    intro member hmember
    obtain ⟨other, hother, -⟩ := hextra member hmember
    rw [hother, Option.isSome_some]
  rw [hperm.all_eq, List.all_append, hnamed, Bool.and_true]

end Lookup

section Values

theorem natural?_ofNat (h : n < 2 ^ 64) : (ofNat n).natural? = some n := by
  rw [ofNat, natural?, Numeral.read?_write]
  exact Option.filter_some_pos (decide_eq_true h)

theorem optionNatural?_ofOptionNat {source : Option Nat} (h : ∀ n ∈ source, n < 2 ^ 64) :
    (ofOptionNat source).optionNatural? = some source := by
  cases source with
  | none => rfl
  | some n =>
      change (ofNat n).natural?.map some = _
      rw [natural?_ofNat (h n rfl), Option.map_some]

theorem isValid_ofNat (n : Nat) : (ofNat n).IsValid :=
  .number (isNumber_write n)

theorem isValid_ofOptionNat (source : Option Nat) : (ofOptionNat source).IsValid := by
  cases source with
  | none => exact .null
  | some n => exact isValid_ofNat n

end Values

end Ledger.Json
