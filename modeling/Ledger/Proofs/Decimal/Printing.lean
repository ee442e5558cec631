import Ledger.Proofs.Decimal.Exact
import Ledger.Proofs.Text.Numeral

/-!
A number is read back as it is written, with all its places. Only the sign of a zero is lost.
-/

namespace Ledger.Decimal

variable {d : Decimal} {negative point started : Bool} {mantissa scale n : Nat} {c : Char}
  {cs ds : List Char}

theorem ne_of_digit? (h : (Numeral.digit? c).isSome = true) :
    c ≠ '.' ∧ c ≠ '_' ∧ c ≠ '-' ∧ c ≠ '+' := by
  refine ⟨?_, ?_, ?_, ?_⟩ <;> rintro rfl <;> cases h

theorem readDigits_append (hread : Numeral.readFrom mantissa ds = some n) (hn : n < 2 ^ 96)
    (hplaces : point = true → scale + ds.length ≤ 28) (rest : List Char) :
    readDigits negative point started mantissa scale (ds ++ rest) =
      readDigits negative point (started || !ds.isEmpty) n
        (if point then scale + ds.length else scale) rest := by
  induction ds generalizing started mantissa scale with
  | nil =>
      cases hread
      simp
  | cons c ds ih =>
      obtain ⟨digit, hdigit, hread⟩ := Option.bind_eq_some_iff.mp hread
      obtain ⟨hdot, hunderscore, -⟩ := ne_of_digit? (Option.isSome_of_eq_some hdigit)
      have hroom : ¬Nat.pow 2 96 ≤ 10 * mantissa + digit :=
        Nat.not_le_of_lt (Nat.lt_of_le_of_lt (Numeral.le_of_readFrom hread) hn)
      have hstop : (point && (scale = 28 || Nat.pow 2 96 ≤ 10 * mantissa + digit)) = false := by
        cases point with
        | false => rfl
        | true =>
            have := hplaces rfl
            rw [List.length_cons] at this
            simpa using ⟨by omega, Nat.lt_of_not_le hroom⟩
      rw [List.cons_append, readDigits, if_neg hdot, if_neg hunderscore, hdigit, Option.bind_some,
        hstop, if_neg Bool.false_ne_true, if_neg hroom, ih hread]
      · cases point <;> simp [Nat.add_assoc, Nat.add_comm 1]
      · intro hpoint
        have := hplaces hpoint
        rw [List.length_cons] at this
        rw [if_pos hpoint]
        omega

theorem writeDigits_eq (mantissa scale : Nat) :
    ∃ whole fraction, whole ≠ [] ∧ fraction.length = scale ∧
      Numeral.readFrom 0 (whole ++ fraction) = some mantissa ∧
      writeDigits mantissa scale = if scale = 0 then whole else whole ++ '.' :: fraction := by
  let digits := Numeral.write mantissa
  let padded := List.replicate (scale + 1 - digits.length) '0' ++ digits
  have hlength : scale < padded.length := by
    rw [List.length_append, List.length_replicate]
    omega
  refine ⟨padded.take (padded.length - scale), padded.drop (padded.length - scale), ?_, ?_, ?_, rfl⟩
  · rw [← List.length_pos_iff, List.length_take]
    omega
  · rw [List.length_drop]
    omega
  · rw [List.take_append_drop, Numeral.readFrom_append, Numeral.readFrom_replicate, Option.bind_some]
    exact Numeral.readFrom_write mantissa

theorem readDigits_whole (hne : ds ≠ []) (hread : Numeral.readFrom 0 ds = some n) (hn : n < 2 ^ 96)
    (rest : List Char) :
    readDigits negative false false 0 0 (ds ++ rest) = readDigits negative false true n 0 rest := by
  have hplaces : false = true → 0 + ds.length ≤ 28 := by simp
  have hstarted : (false || !ds.isEmpty) = true := by simpa using hne
  rw [readDigits_append hread hn hplaces, hstarted, if_neg Bool.false_ne_true]

theorem readDigits_fraction (hread : Numeral.readFrom mantissa ds = some n) (hn : n < 2 ^ 96)
    (hplaces : ds.length ≤ 28) :
    readDigits negative true true mantissa 0 ds = ofDigits? negative n ds.length := by
  have hroom : true = true → 0 + ds.length ≤ 28 := by simpa using hplaces
  rw [← List.append_nil ds, readDigits_append hread hn hroom, Bool.true_or, if_pos rfl,
    Nat.zero_add, readDigits, if_pos rfl, List.append_nil]

theorem readDigits_writeDigits (hmantissa : mantissa < 2 ^ 96) (hscale : scale ≤ 28) :
    readDigits negative false false 0 0 (writeDigits mantissa scale) =
      ofDigits? negative mantissa scale := by
  obtain ⟨whole, fraction, hwhole, hfraction, hread, hwrite⟩ := writeDigits_eq mantissa scale
  rw [Numeral.readFrom_append] at hread
  obtain ⟨units, hunits, hread⟩ := Option.bind_eq_some_iff.mp hread
  have hlt := Nat.lt_of_le_of_lt (Numeral.le_of_readFrom hread) hmantissa
  rw [hwrite]
  split
  · rename_i hzero
    subst hzero
    obtain rfl : fraction = [] := List.eq_nil_of_length_eq_zero hfraction
    cases hread
    rw [← List.append_nil whole, readDigits_whole hwhole hunits hlt, readDigits, if_pos rfl]
  · rw [readDigits_whole hwhole hunits hlt, readDigits, if_pos rfl, if_neg Bool.false_ne_true,
      readDigits_fraction hread hmantissa (hfraction.trans_le hscale), hfraction]

theorem readPlain?_of_digit (hc : (Numeral.digit? c).isSome = true) (cs : List Char) :
    readPlain? (c :: cs) = readDigits false false false 0 0 (c :: cs) := by
  obtain ⟨-, -, hminus, hplus⟩ := ne_of_digit? hc
  unfold readPlain?
  split
  · rename_i h
    exact absurd (List.cons.inj h).1 hminus
  · rename_i h
    exact absurd (List.cons.inj h).1 hplus
  · rfl

theorem exists_cons_writeDigits (mantissa scale : Nat) :
    ∃ c cs, writeDigits mantissa scale = c :: cs ∧ (Numeral.digit? c).isSome = true := by
  obtain ⟨whole, fraction, hwhole, -, hread, hwrite⟩ := writeDigits_eq mantissa scale
  obtain ⟨c, cs, rfl⟩ := List.exists_cons_of_ne_nil hwhole
  have hc := Numeral.isSome_digit?_of_readFrom hread c (by simp)
  rw [hwrite]
  split
  · exact ⟨c, cs, rfl, hc⟩
  · exact ⟨c, cs ++ '.' :: fraction, rfl, hc⟩

theorem ofDigits?_self (h : ¬d.IsNegativeZero) :
    ofDigits? d.negative d.mantissa d.scale = some d := by
  rw [ofDigits?, dif_pos ⟨d.mantissa_lt, d.scale_le⟩, Option.some_inj]
  cases d with
  | mk negative mantissa scale =>
      congr 1
      cases negative with
      | false => rfl
      | true => simpa [IsNegativeZero] using h

/-- What is read of a number that is written; a zero carries no sign then. -/
theorem ofString?_toText_eq (d : Decimal) :
    ofString? d.toText = ofDigits? d.negative d.mantissa d.scale := by
  have hdigits (negative : Bool) :
      readDigits negative false false 0 0 (writeDigits d.mantissa d.scale) =
        ofDigits? negative d.mantissa d.scale :=
    readDigits_writeDigits d.mantissa_lt d.scale_le
  have hplain : readPlain? d.toText.toList = ofDigits? d.negative d.mantissa d.scale := by
    rw [toText, String.toList_ofList, ← hdigits]
    cases d.negative with
    | true => rfl
    | false =>
        obtain ⟨c, cs, hwrite, hc⟩ := exists_cons_writeDigits d.mantissa d.scale
        rw [if_neg Bool.false_ne_true, hwrite, readPlain?_of_digit hc]
  rw [ofString?, hplain, ofDigits?, dif_pos ⟨d.mantissa_lt, d.scale_le⟩]
  rfl

theorem ofString?_toText (h : ¬d.IsNegativeZero) : ofString? d.toText = some d := by
  rw [ofString?_toText_eq, ofDigits?_self h]

theorem exists_ofString?_toText (d : Decimal) :
    ∃ read, ofString? d.toText = some read ∧ read.signed = d.signed ∧ read.scale = d.scale := by
  rw [ofString?_toText_eq, ofDigits?, dif_pos ⟨d.mantissa_lt, d.scale_le⟩]
  refine ⟨_, rfl, ?_, rfl⟩
  by_cases hzero : d.mantissa = 0 <;> simp [signed, hzero]

theorem isBlank_of_mem_writeDigits (h : c ∈ writeDigits mantissa scale) : isBlank c = false := by
  obtain ⟨whole, fraction, -, -, hread, hwrite⟩ := writeDigits_eq mantissa scale
  have hblank : ∀ c ∈ whole ++ fraction, isBlank c = false :=
    fun c hc => Numeral.isBlank_of_digit? (Numeral.isSome_digit?_of_readFrom hread c hc)
  rw [hwrite] at h
  split at h
  · exact hblank c (List.mem_append_left _ h)
  · rcases List.mem_append.mp h with hwhole | hpoint
    · exact hblank c (List.mem_append_left _ hwhole)
    · rcases List.mem_cons.mp hpoint with rfl | hfraction
      · rfl
      · exact hblank c (List.mem_append_right _ hfraction)

theorem isBlank_of_mem_toText (h : c ∈ d.toText.toList) : isBlank c = false := by
  rw [toText, String.toList_ofList] at h
  split at h
  · rcases List.mem_cons.mp h with rfl | h
    · rfl
    · exact isBlank_of_mem_writeDigits h
  · exact isBlank_of_mem_writeDigits h

theorem trimBlanks_toText (d : Decimal) : trimBlanks d.toText.toList = d.toText.toList :=
  trimBlanks_of_forall fun _ hc => isBlank_of_mem_toText hc

theorem toText_ne_empty (d : Decimal) : d.toText ≠ "" := by
  intro h
  obtain ⟨c, cs, hwrite, -⟩ := exists_cons_writeDigits d.mantissa d.scale
  have htext := congrArg String.toList h
  rw [toText, String.toList_ofList, hwrite] at htext
  split at htext <;> cases htext

end Ledger.Decimal
