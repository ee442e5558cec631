import Ledger.Text.Blank
import Ledger.Text.Integer
import Mathlib.Algebra.Group.Nat.Defs

/-!
Runs of decimal digits: what is read of them only grows, none of them is blank, and the number that
a run stands for is read as such wherever it fits 64 bits.
-/

namespace Ledger

namespace Numeral

variable {c : Char} {cs : List Char} {value n : Nat}

theorem isSome_digit?_of_readFrom (h : readFrom value cs = some n) :
    ∀ c ∈ cs, (digit? c).isSome = true := by
  induction cs generalizing value with
  | nil => simp
  | cons c cs ih =>
      obtain ⟨digit, hdigit, h⟩ := Option.bind_eq_some_iff.mp h
      exact List.forall_mem_cons.mpr ⟨Option.isSome_of_eq_some hdigit, ih h⟩

theorem le_of_readFrom (h : readFrom value cs = some n) : value ≤ n := by
  induction cs generalizing value with
  | nil => exact Nat.le_of_eq (Option.some.inj h)
  | cons c cs ih =>
      obtain ⟨digit, -, h⟩ := Option.bind_eq_some_iff.mp h
      have := ih h
      omega

theorem isBlank_of_digit? (h : (digit? c).isSome = true) : isBlank c = false := by
  unfold digit? at h
  split at h
  · rename_i hrange
    have hfirst : 48 ≤ c.toNat := hrange.1
    have hlast : c.toNat ≤ 57 := hrange.2
    simp only [isBlank, Bool.or_eq_false_iff, Bool.and_eq_false_iff, decide_eq_false_iff_not,
      beq_eq_false_iff_ne]
    omega
  · cases h

theorem isSome_digit?_of_mem_write (h : c ∈ write n) : (digit? c).isSome = true :=
  isSome_digit?_of_readFrom (readFrom_write n) c h

theorem trimBlanks_write (n : Nat) : trimBlanks (write n) = write n :=
  trimBlanks_of_forall fun _ hc => isBlank_of_digit? (isSome_digit?_of_mem_write hc)

theorem write_injective : Function.Injective write := by
  intro m n h
  have hread := congrArg read? h
  rw [read?_write, read?_write] at hread
  exact Option.some.inj hread

theorem readFrom_replicate (count : Nat) : readFrom 0 (List.replicate count '0') = some 0 := by
  induction count with
  | zero => rfl
  | succ count ih => exact ih

theorem length_write_le {width : Nat} (h : n < 10 ^ width) (hwidth : 0 < width) :
    (write n).length ≤ width := by
  induction width generalizing n with
  | zero => cases hwidth
  | succ width ih =>
      rw [write]
      split
      · exact hwidth
      · rw [Nat.pow_succ] at h
        have hless : n / 10 < 10 ^ width := by omega
        have hpos : 0 < width := by
          apply Nat.pos_of_ne_zero
          rintro rfl
          rw [Nat.pow_zero] at h
          omega
        rw [List.length_append, List.length_singleton]
        exact Nat.succ_le_succ (ih hless hpos)

theorem head?_write (h : n ≠ 0) : (write n).head? ≠ some '0' := by
  induction n using Nat.strongRecOn with
  | ind n ih =>
      rw [write]
      split
      · rename_i hlt
        match n, hlt, h with
        | 1, _, _ | 2, _, _ | 3, _, _ | 4, _, _ | 5, _, _ | 6, _, _ | 7, _, _ | 8, _, _
        | 9, _, _ => decide
      · obtain ⟨c, cs, hwrite⟩ := List.exists_cons_of_ne_nil (write_ne_nil (n / 10))
        have hfirst := ih (n / 10) (by omega) (by omega)
        rw [hwrite] at hfirst ⊢
        exact hfirst

end Numeral

namespace Integer

variable {cs : List Char} {value n : Nat}

theorem readFrom_of_numeral (h : Numeral.readFrom value cs = some n) (hn : n < Nat.pow 2 64) :
    readFrom 10 Numeral.digit? value cs = .ok n := by
  induction cs generalizing value with
  | nil =>
      cases h
      rfl
  | cons c cs ih =>
      obtain ⟨digit, hdigit, h⟩ := Option.bind_eq_some_iff.mp h
      have hle := Numeral.le_of_readFrom h
      rw [readFrom, hdigit]
      dsimp only
      rw [if_neg (by omega), ih h]

theorem ofDecimal_of_numeral (hne : cs ≠ []) (h : Numeral.readFrom 0 cs = some n)
    (hn : n < Nat.pow 2 64) : ofDecimal cs = .ok n := by
  have hdigits := Numeral.isSome_digit?_of_readFrom h
  have hplus : (Numeral.digit? '+').isSome = false := rfl
  unfold ofDecimal readDigits
  split
  · exact absurd rfl hne
  · simp [hplus] at hdigits
  · simp [hplus] at hdigits
  · exact readFrom_of_numeral h hn

theorem ofText_write (hn : n < Nat.pow 2 64) :
    ofText (String.ofList (Numeral.write n)) = .ok n := by
  have hdigits := Numeral.isSome_digit?_of_readFrom (Numeral.readFrom_write n)
  have hx : (Numeral.digit? 'x').isSome = false := rfl
  unfold ofText
  rw [String.toList_ofList]
  split
  · rename_i digits hwrite
    rw [hwrite] at hdigits
    simp [hx] at hdigits
  · exact ofDecimal_of_numeral (Numeral.write_ne_nil n) (Numeral.readFrom_write n) hn

end Integer

end Ledger
