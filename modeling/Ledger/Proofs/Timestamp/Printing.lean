import Ledger.Proofs.Text.Numeral
import Ledger.Timestamp.Text
import Mathlib.Tactic.SplitIfs

/-!
A time is read back as it is written, if its year has four digits. Every part but the fraction of a
second has a fixed width, and as many digits are read as are written.
-/

namespace Ledger.Timestamp

variable {value n width most : Nat} {digits rest : List Char} {t : Timestamp}

/-- Whether a time is written without a sign in front of the year. -/
def HasShortYear (t : Timestamp) : Prop :=
  t.Valid ∧ 0 ≤ t.year ∧ t.year ≤ 9999

instance (t : Timestamp) : Decidable t.HasShortYear :=
  inferInstanceAs (Decidable (_ ∧ _))

theorem readUpTo_append (hread : Numeral.readFrom value digits = some n)
    (hlength : digits.length ≤ most)
    (hstop : digits.length = most ∨ ∀ c ∈ rest.head?, Numeral.digit? c = none) :
    readUpTo value most (digits ++ rest) = (n, rest) := by
  induction digits generalizing value most with
  | nil =>
      cases hread
      cases most with
      | zero => rfl
      | succ most =>
          have hrest := hstop.resolve_left (by simp)
          cases rest with
          | nil => rfl
          | cons c rest => rw [List.nil_append, readUpTo, hrest c rfl]
  | cons c digits ih =>
      obtain ⟨digit, hdigit, hread⟩ := Option.bind_eq_some_iff.mp hread
      rw [List.length_cons] at hlength hstop
      obtain ⟨most, rfl⟩ : ∃ less, most = less + 1 := ⟨most - 1, by omega⟩
      rw [List.cons_append, readUpTo, hdigit]
      exact ih hread (by omega) (hstop.imp_left (by omega))

section Padded

theorem readFrom_padded (width n : Nat) : Numeral.readFrom 0 (padded width n) = some n := by
  rw [padded, Numeral.readFrom_append, Numeral.readFrom_replicate]
  exact Numeral.readFrom_write n

theorem length_padded (h : n < 10 ^ width) (hwidth : 0 < width) :
    (padded width n).length = width := by
  have hle := Numeral.length_write_le h hwidth
  rw [padded, List.length_append, List.length_replicate]
  omega

theorem exists_padded (width n : Nat) :
    ∃ c cs, padded width n = c :: cs ∧ (Numeral.digit? c).isSome = true := by
  have hne : padded width n ≠ [] := by simp [padded, Numeral.write_ne_nil]
  obtain ⟨c, cs, hpadded⟩ := List.exists_cons_of_ne_nil hne
  refine ⟨c, cs, hpadded, ?_⟩
  exact Numeral.isSome_digit?_of_readFrom (readFrom_padded width n) c (by simp [hpadded])

theorem dropBlanks_padded (width n : Nat) (rest : List Char) :
    dropBlanks (padded width n ++ rest) = padded width n ++ rest := by
  obtain ⟨c, cs, hpadded, hc⟩ := exists_padded width n
  apply dropBlanks_eq_self
  simpa [hpadded] using Numeral.isBlank_of_digit? hc

theorem padded_append_ne {sign : Char} {more : List Char} (h : Numeral.digit? sign = none)
    (width n : Nat) : padded width n ++ rest ≠ sign :: more := by
  obtain ⟨c, cs, hpadded, hc⟩ := exists_padded width n
  rw [hpadded, List.cons_append]
  rintro heq
  rw [(List.cons.inj heq).1, h] at hc
  cases hc

theorem readNumber?_padded (h : n < 10 ^ width) (hwidth : 0 < width) (hle : width ≤ most)
    (hstop : width = most ∨ ∀ c ∈ rest.head?, Numeral.digit? c = none) :
    readNumber? most (padded width n ++ rest) = some (n, rest) := by
  have hlength := length_padded h hwidth
  have hread := readUpTo_append (readFrom_padded width n) (Nat.le_trans (Nat.le_of_eq hlength) hle)
    (hstop.imp_left hlength.trans)
  obtain ⟨c, cs, hpadded, hc⟩ := exists_padded width n
  rw [hpadded, List.cons_append] at hread ⊢
  rw [readNumber?, if_pos hc, hread]

theorem readField?_padded (h : n < 100) (rest : List Char) :
    readField? 2 (padded 2 n ++ rest) = some (n, rest) := by
  rw [readField?, dropBlanks_padded]
  exact readNumber?_padded h (by decide) (Nat.le_refl _) (.inl rfl)

end Padded

theorem readYear?_write {year : Int} (hlow : 0 ≤ year) (hhigh : year ≤ 9999) (rest : List Char) :
    readYear? (writeYear year ++ rest) = some (year, rest) := by
  have hyear : year.toNat < 10 ^ 4 := by omega
  have hread : readNumber? 4 (padded 4 year.toNat ++ rest) = some (year.toNat, rest) :=
    readNumber?_padded hyear (by decide) (Nat.le_refl 4) (.inl rfl)
  rw [writeYear, if_pos ⟨hlow, hhigh⟩, readYear?, dropBlanks_padded]
  split
  · rename_i hminus
    exact absurd hminus (padded_append_ne rfl 4 year.toNat)
  · rename_i hplus
    exact absurd hplus (padded_append_ne rfl 4 year.toNat)
  · rw [hread, Option.map_some]
    simp [Int.toNat_of_nonneg hlow]

theorem readFraction?_padded (h : n < 10 ^ width) (hwidth : 0 < width) (hle : width ≤ 9) :
    readFraction? ('.' :: padded width n ++ ['Z']) = some (n * 10 ^ (9 - width), ['Z']) := by
  have hread : readNumber? 9 (padded width n ++ ['Z']) = some (n, ['Z']) :=
    readNumber?_padded h hwidth hle (.inr (by simp; rfl))
  have hlength : (padded width n ++ ['Z']).length - ['Z'].length = width := by
    rw [List.length_append, length_padded h hwidth, Nat.add_sub_cancel]
  rw [List.cons_append, readFraction?, hread, Option.map_some]
  simp only [hlength]
  rfl

theorem readFraction?_write (h : n < 10 ^ 9) :
    readFraction? (writeFraction n ++ ['Z']) = some (n, ['Z']) := by
  have hmilli : Nat.pow 10 6 = 1000000 := rfl
  have hmicro : Nat.pow 10 3 = 1000 := rfl
  unfold writeFraction
  simp only [hmilli, hmicro]
  split_ifs with hnone hmillis hmicros
  · rw [hnone]
    rfl
  · rw [readFraction?_padded (by omega) (by decide) (by decide)]
    simp only [Nat.reduceSub, Nat.reducePow, Nat.div_mul_cancel (Nat.dvd_of_mod_eq_zero hmillis)]
  · rw [readFraction?_padded (by omega) (by decide) (by decide)]
    simp only [Nat.reduceSub, Nat.reducePow, Nat.div_mul_cancel (Nat.dvd_of_mod_eq_zero hmicros)]
  · rw [readFraction?_padded h (by decide) (by decide), Nat.sub_self, Nat.pow_zero, Nat.mul_one]

theorem readMark?_cons (mark : Char) (h : isBlank mark = false) (rest : List Char) :
    readMark? mark (mark :: rest) = some rest := by
  rw [readMark?, dropBlanks_eq_self (by simpa using h)]
  exact if_pos rfl

theorem day_lt_hundred {year : Int} {month day : Nat} (h : day ≤ daysInMonth year month) :
    day < 100 := by
  unfold daysInMonth at h
  split_ifs at h <;> omega

theorem write_eq (t : Timestamp) :
    t.write = writeYear t.year ++ '-' :: (padded 2 t.month ++ '-' :: (padded 2 t.day ++
      'T' :: (padded 2 t.hour ++ ':' :: (padded 2 t.minute ++ ':' :: (padded 2 t.second ++
        (writeFraction t.nanos ++ ['Z'])))))) := by
  simp only [write, List.append_assoc, List.cons_append]

theorem ofString?_toText (h : t.HasShortYear) : ofString? t.toText = some t := by
  obtain ⟨hvalid, hlow, hhigh⟩ := h
  have hclock := hvalid
  obtain ⟨-, -, -, hmonth, -, hday, hhour, hminute, hsecond, hnanos⟩ := hclock
  have hmonth := readField?_padded (show t.month < 100 by omega)
  have hday := readField?_padded (day_lt_hundred hday)
  have hhour := readField?_padded (show t.hour < 100 by omega)
  have hminute := readField?_padded (show t.minute < 100 by omega)
  have hsecond := readField?_padded (show t.second < 100 by omega)
  have hdash := readMark?_cons '-' rfl
  have hcolon := readMark?_cons ':' rfl
  have hoffset : readOffset? ['Z'] = some (0, []) := rfl
  rw [ofString?, toText, String.toList_ofList, write_eq, read?]
  refine Option.bind_eq_some_iff.mpr ⟨_, readYear?_write hlow hhigh _, ?_⟩
  refine Option.bind_eq_some_iff.mpr ⟨_, hdash _, ?_⟩
  refine Option.bind_eq_some_iff.mpr ⟨_, hmonth _, ?_⟩
  refine Option.bind_eq_some_iff.mpr ⟨_, hdash _, ?_⟩
  refine Option.bind_eq_some_iff.mpr ⟨_, hday _, ?_⟩
  refine Option.bind_eq_some_iff.mpr ⟨_, rfl, ?_⟩
  refine Option.bind_eq_some_iff.mpr ⟨_, hhour _, ?_⟩
  refine Option.bind_eq_some_iff.mpr ⟨_, hcolon _, ?_⟩
  refine Option.bind_eq_some_iff.mpr ⟨_, hminute _, ?_⟩
  refine Option.bind_eq_some_iff.mpr ⟨_, hcolon _, ?_⟩
  refine Option.bind_eq_some_iff.mpr ⟨_, hsecond _, ?_⟩
  refine Option.bind_eq_some_iff.mpr ⟨_, readFraction?_write hnanos, ?_⟩
  refine Option.bind_eq_some_iff.mpr ⟨_, hoffset, ?_⟩
  dsimp only
  rw [ofLocal_zero hvalid]
  exact if_pos ⟨hvalid, hvalid, rfl⟩

end Ledger.Timestamp
