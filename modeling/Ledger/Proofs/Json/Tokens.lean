import Ledger.Json.Reader
import Ledger.Json.Writer
import Ledger.Proofs.Text.Numeral
import Mathlib.Data.List.TakeDrop
import Mathlib.Data.List.TakeWhile
import Mathlib.Tactic.IntervalCases
import Mathlib.Tactic.SplitIfs

/-!
Strings and numbers in a text. Every text is read back from the string that is written for it, and a
number goes on as far as it can, so what follows it must not look like more of it.
-/

namespace Ledger.Json

variable {c : Char} {cs rest literal : List Char}

section Strings

/-- The ways in which characters are written inside a string. -/
inductive Spelled : Char → List Char → Prop
  | letter {c d : Char} (h : escaped? d = some c) (hd : d ≠ 'u') : Spelled c ['\\', d]
  | control {c : Char} (h : c.toNat < 0x20) :
      Spelled c ['\\', 'u', '0', '0', Nat.digitChar (c.toNat / 16), Nat.digitChar (c.toNat % 16)]
  | plain {c : Char} (h : 0x20 ≤ c.toNat) (hquote : c ≠ '"') (hbackslash : c ≠ '\\') :
      Spelled c [c]

theorem spelled_escape (c : Char) : Spelled c (escape c) := by
  unfold escape
  split_ifs with hquote hbackslash hb hf hn hr ht hcontrol
  · exact .letter (by rw [hquote]; rfl) (by decide)
  · exact .letter (by rw [hbackslash]; rfl) (by decide)
  · exact .letter (by rw [hb]; rfl) (by decide)
  · exact .letter (by rw [hf]; rfl) (by decide)
  · exact .letter (by rw [hn]; rfl) (by decide)
  · exact .letter (by rw [hr]; rfl) (by decide)
  · exact .letter (by rw [ht]; rfl) (by decide)
  · exact .control hcontrol
  · exact .plain (Nat.le_of_not_lt hcontrol) hquote hbackslash

theorem hexDigit?_digitChar {d : Nat} (h : d < 16) :
    Numeral.hexDigit? (Nat.digitChar d) = some d := by
  interval_cases d <;> rfl

theorem Spelled.readString?_append (h : Spelled c cs) (rest : List Char) :
    readString? (cs ++ rest) = (readString? rest).map (StringBody.cons c) := by
  cases h with
  | @letter d h hd =>
      rw [List.cons_append, List.cons_append, List.nil_append, readString?, h]
      exact fun _ _ _ _ _ hu => absurd hu hd
  | control h =>
      have hhigh := hexDigit?_digitChar (d := c.toNat / 16) (by omega)
      have hlow := hexDigit?_digitChar (d := c.toNat % 16) (by omega)
      have hunit : codeUnit? '0' '0' (Nat.digitChar (c.toNat / 16)) (Nat.digitChar (c.toNat % 16)) =
          some c.toNat := by
        have hzero : Numeral.hexDigit? '0' = some 0 := rfl
        simp only [codeUnit?, hzero, hhigh, hlow, Option.bind_some, Option.map_some]
        congr 1
        omega
      have hnotHigh : isHighSurrogate c.toNat = false := by simp [isHighSurrogate]; omega
      have hnotLow : isLowSurrogate c.toNat = false := by simp [isLowSurrogate]; omega
      simp only [List.cons_append, List.nil_append]
      rw [readString?]
      simp only [hunit, hnotHigh, hnotLow, Char.ofNat_toNat, Bool.false_eq_true, if_false]
  | plain h hquote hbackslash =>
      rw [List.singleton_append, readString?, if_neg (Nat.not_lt_of_le h)]
      · exact hquote
      · exact fun _ _ _ _ _ hu => absurd hu hbackslash
      · exact fun _ _ hc => absurd hc hbackslash

theorem readString?_write (text rest : List Char) :
    readString? (text.flatMap escape ++ '"' :: rest) = some (some text, rest) := by
  induction text with
  | nil => rfl
  | cons c text ih =>
      rw [List.flatMap_cons, List.append_assoc, (spelled_escape c).readString?_append, ih]
      rfl

theorem exists_writeName (name : Option String) (rest : List Char) :
    ∃ body, writeName name ++ rest = '"' :: body ∧
      readString? body = some (name.map String.toList, rest) := by
  cases name with
  | none => exact ⟨_, rfl, rfl⟩
  | some name =>
      refine ⟨name.toList.flatMap escape ++ '"' :: rest, ?_, readString?_write name.toList rest⟩
      simp [writeName, writeString]

end Strings

section Numbers

/-- Whether a text is a number, all of it. -/
def IsNumber (literal : List Char) : Prop :=
  readNumber? literal = some (literal, [])

/-- Whether what follows a number cannot be more of it. -/
def EndsNumber (rest : List Char) : Prop :=
  ∀ c ∈ rest.head?, Numeral.digit? c = none ∧ c ≠ '.' ∧ c ≠ 'e' ∧ c ≠ 'E'

theorem endsNumber_nil : EndsNumber [] := by
  simp [EndsNumber]

theorem endsNumber_cons (hdigit : Numeral.digit? c = none) (hpoint : c ≠ '.') (he : c ≠ 'e')
    (hE : c ≠ 'E') (rest : List Char) : EndsNumber (c :: rest) := by
  simp [EndsNumber, hdigit, hpoint, he, hE]

theorem spanDigits_append (h : EndsNumber rest) (cs : List Char) :
    spanDigits (cs ++ rest) = ((spanDigits cs).1, (spanDigits cs).2 ++ rest) := by
  simp only [spanDigits, List.span_eq_takeWhile_dropWhile]
  induction cs with
  | nil =>
      cases rest with
      | nil => rfl
      | cons c rest =>
          obtain ⟨hdigit, -⟩ := h c rfl
          simp [hdigit]
  | cons c cs ih =>
      obtain ⟨htake, hdrop⟩ := Prod.mk.inj ih
      cases hdigit : (Numeral.digit? c).isSome <;> simp [hdigit, htake, hdrop]

/-- A mark and the digits after it, of which there must be some. -/
def digitsAfter? (mark cs : List Char) : Option (List Char × List Char) :=
  if (spanDigits cs).1 = [] then none else some (mark ++ (spanDigits cs).1, (spanDigits cs).2)

variable {mark read left : List Char}

theorem digitsAfter?_append (h : EndsNumber rest)
    (hread : digitsAfter? mark cs = some (read, left)) :
    digitsAfter? mark (cs ++ rest) = some (read, left ++ rest) := by
  unfold digitsAfter? at hread ⊢
  rw [spanDigits_append h]
  split at hread
  · cases hread
  · rename_i hdigits
    cases hread
    rw [if_neg hdigits]

theorem match_spanDigits (mark cs : List Char) :
    (match spanDigits cs with
      | ([], _) => none
      | (digits, rest) => some (mark ++ digits, rest)) = digitsAfter? mark cs := by
  unfold digitsAfter?
  cases hspan : spanDigits cs with
  | mk digits left => cases digits <;> simp

theorem readWhole?_of_ne (h : c ≠ '0') (cs : List Char) :
    readWhole? (c :: cs) = digitsAfter? [] (c :: cs) := by
  rw [readWhole?.eq_def]
  split
  · rename_i heq
    exact absurd (List.cons.inj heq).1 h
  · unfold digitsAfter?
    cases hspan : spanDigits (c :: cs) with
    | mk digits left => cases digits <;> simp

theorem readPlaces?_point (cs : List Char) : readPlaces? ('.' :: cs) = digitsAfter? ['.'] cs :=
  match_spanDigits ['.'] cs

theorem readExponent?_signed {sign : Char} (h : c = 'e' ∨ c = 'E') (hsign : sign = '+' ∨ sign = '-')
    (cs : List Char) : readExponent? (c :: sign :: cs) = digitsAfter? [c, sign] cs := by
  rcases hsign with rfl | rfl
  · simp only [readExponent?, if_pos h]
    exact match_spanDigits [c, '+'] cs
  · simp only [readExponent?, if_pos h]
    exact match_spanDigits [c, '-'] cs

theorem readExponent?_unsigned (h : c = 'e' ∨ c = 'E') (hplus : cs.head? ≠ some '+')
    (hminus : cs.head? ≠ some '-') : readExponent? (c :: cs) = digitsAfter? [c] cs := by
  simp only [readExponent?, if_pos h]
  split
  · exact absurd rfl hplus
  · exact absurd rfl hminus
  · exact match_spanDigits [c] cs

theorem readExponent?_none (h : ∀ c ∈ cs.head?, c ≠ 'e' ∧ c ≠ 'E') :
    readExponent? cs = some ([], cs) := by
  cases cs with
  | nil => rfl
  | cons c cs =>
      obtain ⟨he, hE⟩ := h c rfl
      simp [readExponent?, he, hE]

theorem readPlaces?_none (h : cs.head? ≠ some '.') : readPlaces? cs = some ([], cs) := by
  unfold readPlaces?
  split
  · exact absurd rfl h
  · rfl

theorem readWhole?_append (h : EndsNumber rest) (hread : readWhole? cs = some (read, left)) :
    readWhole? (cs ++ rest) = some (read, left ++ rest) := by
  cases cs with
  | nil => cases hread
  | cons c cs =>
      by_cases hzero : c = '0'
      · subst hzero
        cases hread
        rfl
      · rw [readWhole?_of_ne hzero] at hread
        rw [List.cons_append, readWhole?_of_ne hzero]
        exact digitsAfter?_append h hread

theorem readPlaces?_append (h : EndsNumber rest) (hread : readPlaces? cs = some (read, left)) :
    readPlaces? (cs ++ rest) = some (read, left ++ rest) := by
  cases cs with
  | nil =>
      cases hread
      exact readPlaces?_none fun hpoint => (h '.' hpoint).2.1 rfl
  | cons c cs =>
      by_cases hpoint : c = '.'
      · subst hpoint
        rw [readPlaces?_point] at hread
        rw [List.cons_append, readPlaces?_point]
        exact digitsAfter?_append h hread
      · rw [readPlaces?_none (by simpa using hpoint)] at hread
        cases hread
        exact readPlaces?_none (by simpa using hpoint)

theorem readExponent?_append (h : EndsNumber rest) (hread : readExponent? cs = some (read, left)) :
    readExponent? (cs ++ rest) = some (read, left ++ rest) := by
  cases cs with
  | nil =>
      cases hread
      exact readExponent?_none fun c hc => (h c hc).2.2
  | cons c cs =>
      by_cases hmark : c = 'e' ∨ c = 'E'
      · obtain ⟨d, cs, rfl⟩ : ∃ d rest, cs = d :: rest := by
          cases cs with
          | nil =>
              rw [readExponent?_unsigned hmark (by simp) (by simp)] at hread
              cases hread
          | cons d cs => exact ⟨d, cs, rfl⟩
        by_cases hsign : d = '+' ∨ d = '-'
        · rw [readExponent?_signed hmark hsign] at hread
          rw [List.cons_append, List.cons_append, readExponent?_signed hmark hsign]
          exact digitsAfter?_append h hread
        · obtain ⟨hplus, hminus⟩ := not_or.mp hsign
          rw [readExponent?_unsigned hmark (by simpa using hplus) (by simpa using hminus)] at hread
          rw [List.cons_append, List.cons_append, readExponent?_unsigned hmark
            (by simpa using hplus) (by simpa using hminus)]
          exact digitsAfter?_append h hread
      · rw [readExponent?_none (by simpa using hmark)] at hread
        cases hread
        exact readExponent?_none (by simpa using hmark)

theorem readUnsigned?_append (h : EndsNumber rest) (hread : readUnsigned? cs = some (read, left)) :
    readUnsigned? (cs ++ rest) = some (read, left ++ rest) := by
  obtain ⟨⟨whole, afterWhole⟩, hwhole, hread⟩ := Option.bind_eq_some_iff.mp hread
  obtain ⟨⟨places, afterPlaces⟩, hplaces, hread⟩ := Option.bind_eq_some_iff.mp hread
  obtain ⟨⟨exponent, afterExponent⟩, hexponent, hread⟩ := Option.map_eq_some_iff.mp hread
  cases hread
  simp only [readUnsigned?, readWhole?_append h hwhole, Option.bind_some,
    readPlaces?_append h hplaces, readExponent?_append h hexponent, Option.map_some]

theorem readNumber?_of_ne (h : c ≠ '-') (cs : List Char) :
    readNumber? (c :: cs) = readUnsigned? (c :: cs) := by
  rw [readNumber?]
  exact fun _ heq => h (List.cons.inj heq).1

theorem readNumber?_append (h : EndsNumber rest) (hread : readNumber? cs = some (read, left)) :
    readNumber? (cs ++ rest) = some (read, left ++ rest) := by
  cases cs with
  | nil => cases hread
  | cons c cs =>
      by_cases hminus : c = '-'
      · subst hminus
        obtain ⟨⟨number, after⟩, hnumber, hread⟩ := Option.map_eq_some_iff.mp hread
        cases hread
        rw [List.cons_append, readNumber?, readUnsigned?_append h hnumber, Option.map_some]
      · rw [readNumber?_of_ne hminus] at hread
        rw [List.cons_append, readNumber?_of_ne hminus]
        exact readUnsigned?_append h hread

theorem IsNumber.readNumber?_append (hnumber : IsNumber literal) (h : EndsNumber rest) :
    readNumber? (literal ++ rest) = some (literal, rest) :=
  Json.readNumber?_append h hnumber

theorem isSome_digit?_of_span (h : (spanDigits (c :: cs)).1 ≠ []) :
    (Numeral.digit? c).isSome = true := by
  by_contra hdigit
  simp [spanDigits, List.span_eq_takeWhile_dropWhile, hdigit] at h

theorem IsNumber.exists_cons (h : IsNumber literal) :
    ∃ c cs, literal = c :: cs ∧ (c = '-' ∨ (Numeral.digit? c).isSome = true) := by
  cases literal with
  | nil => cases h
  | cons c cs =>
      refine ⟨c, cs, rfl, ?_⟩
      by_cases hminus : c = '-'
      · exact .inl hminus
      right
      rw [IsNumber, readNumber?_of_ne hminus] at h
      obtain ⟨⟨whole, left⟩, hwhole, -⟩ := Option.bind_eq_some_iff.mp h
      by_cases hzero : c = '0'
      · subst hzero
        rfl
      · rw [readWhole?_of_ne hzero, digitsAfter?] at hwhole
        split at hwhole
        · cases hwhole
        · rename_i hdigits
          exact isSome_digit?_of_span hdigits

theorem spanDigits_write (n : Nat) : spanDigits (Numeral.write n) = (Numeral.write n, []) := by
  have hdigits : ∀ c ∈ Numeral.write n, (Numeral.digit? c).isSome = true :=
    fun _ => Numeral.isSome_digit?_of_mem_write
  rw [spanDigits, List.span_eq_takeWhile_dropWhile, List.takeWhile_eq_self_iff.mpr hdigits,
    List.dropWhile_eq_nil_iff.mpr hdigits]

theorem readWhole?_write (n : Nat) :
    readWhole? (Numeral.write n) = some (Numeral.write n, []) := by
  by_cases hn : n = 0
  · subst hn
    rw [Numeral.write]
    rfl
  · have hspan := spanDigits_write n
    obtain ⟨c, cs, hwrite⟩ := List.exists_cons_of_ne_nil (Numeral.write_ne_nil n)
    have hzero : c ≠ '0' := by simpa [hwrite] using Numeral.head?_write hn
    rw [hwrite] at hspan ⊢
    rw [readWhole?_of_ne hzero, digitsAfter?, hspan, if_neg (List.cons_ne_nil c cs)]
    rfl

theorem isNumber_write (n : Nat) : IsNumber (Numeral.write n) := by
  have hunsigned : readUnsigned? (Numeral.write n) = some (Numeral.write n, []) := by
    simp [readUnsigned?, readWhole?_write, readPlaces?, readExponent?]
  obtain ⟨c, cs, hwrite⟩ := List.exists_cons_of_ne_nil (Numeral.write_ne_nil n)
  have hminus : c ≠ '-' := by
    rintro rfl
    have hdigit : (Numeral.digit? '-').isSome = true :=
      Numeral.isSome_digit?_of_mem_write (n := n) (by simp [hwrite])
    cases hdigit
  rw [hwrite] at hunsigned ⊢
  rw [IsNumber, readNumber?_of_ne hminus, hunsigned]

end Numbers

end Ledger.Json
