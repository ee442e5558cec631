import Ledger.Proofs.Csv.Spelling

/-!
The lines of a text and the records on them. A line ends with a record, or with nothing on it, or
inside quotes, where the record goes on; so the line on which a record starts is told by the records,
the blank lines and the quoted line ends before it.
-/

namespace Ledger.Csv

/-- The lines that end in a text. A carriage return and a newline right after it end one line. -/
def lineEnds : List UInt8 → Nat
  | 0x0D :: 0x0A :: rest => lineEnds rest + 1
  | b :: rest => lineEnds rest + if isLineEnd b then 1 else 0
  | [] => 0

/-- The lines whose end is met at a place of the given kind, by a reader that stands at `place`. -/
def lineEndsAt (kind place : Place) : List UInt8 → Nat
  | 0x0D :: 0x0A :: rest =>
      lineEndsAt kind (place.after [0x0D, 0x0A]) rest + if place = kind then 1 else 0
  | b :: rest =>
      lineEndsAt kind (place.step b).1 rest + if isLineEnd b ∧ place = kind then 1 else 0
  | [] => 0

/-- The lines with nothing on them; no record is read from those. -/
def blankLines (bytes : List UInt8) : Nat :=
  lineEndsAt .recordStart .recordStart bytes

/-- The lines that end inside quotes, so that the record goes on. -/
def quotedLineEnds (bytes : List UInt8) : Nat :=
  lineEndsAt .quoted .recordStart bytes

/-- The line, counted from 1, on which a text goes on after some bytes. -/
def lineAfter (before : List UInt8) : Nat :=
  lineEnds before + 1

/-- Whether the record with the given number, counted from 0, starts after some bytes of a text. -/
structure StartsAfter (bytes : List UInt8) (number : Nat) (before : List UInt8) : Prop where
  between : Place.recordStart.after before = .recordStart
  count : (readFrom .recordStart [] [] before).length = number
  begun : ∃ b rest, bytes = before ++ b :: rest ∧ isLineEnd b = false

variable {bytes before other rest : List UInt8} {b : UInt8} {number : Nat} {field : Field}
  {fields : List Field} {place : Place}

section Count

theorem length_readFrom (place : Place) (fields : List Field) (field : Field)
    (bytes : List UInt8) :
    (readFrom place fields field bytes).length = (readFrom place [] [] bytes).length := by
  induction bytes generalizing place fields field with
  | nil => rw [readFrom, readFrom]; split <;> rfl
  | cons b bytes ih =>
      cases hstep : place.step b with
      | mk next action =>
          cases action with
          | skip => rw [readFrom_skip hstep, readFrom_skip hstep, ih]
          | keep => rw [readFrom_keep hstep, readFrom_keep hstep, ih, ih next [] [b]]
          | endField =>
              rw [readFrom_endField hstep, readFrom_endField hstep, ih, ih next [List.reverse []]]
          | endRecord =>
              rw [readFrom_endRecord hstep, readFrom_endRecord hstep]
              rfl

theorem length_readFrom_cons (place : Place) (b : UInt8) (bytes : List UInt8) :
    (readFrom place [] [] (b :: bytes)).length =
      (readFrom (place.step b).1 [] [] bytes).length +
        if (place.step b).2 = .endRecord then 1 else 0 := by
  cases hstep : place.step b with
  | mk next action =>
      cases action with
      | skip => rw [readFrom_skip hstep]; rfl
      | keep => rw [readFrom_keep hstep, length_readFrom]; rfl
      | endField => rw [readFrom_endField hstep, length_readFrom]; rfl
      | endRecord => rw [readFrom_endRecord hstep]; rfl

theorem step_eq_recordStart_iff :
    (place.step b).1 = .recordStart ↔ isLineEnd b = true ∧ place ≠ .quoted := by
  have hturn := turns_step place b
  cases hstep : place.step b with
  | mk next action =>
      rw [hstep] at hturn
      have hcomma : isLineEnd comma = false := rfl
      have hquote : isLineEnd quote = false := rfl
      cases hturn <;> simp_all

theorem step_eq_endRecord_iff :
    (place.step b).2 = .endRecord ↔
      isLineEnd b = true ∧ place ≠ .quoted ∧ place ≠ .recordStart := by
  have hturn := turns_step place b
  cases hstep : place.step b with
  | mk next action =>
      rw [hstep] at hturn
      have hcomma : isLineEnd comma = false := rfl
      have hquote : isLineEnd quote = false := rfl
      cases hturn <;> simp_all

theorem length_readFrom_pos (hplace : place ≠ .recordStart) (bytes : List UInt8) :
    0 < (readFrom place [] [] bytes).length := by
  induction bytes generalizing place with
  | nil => rw [readFrom, if_neg hplace]; simp
  | cons b bytes ih =>
      rw [length_readFrom_cons]
      by_cases hend : (place.step b).2 = .endRecord
      · rw [if_pos hend]
        exact Nat.succ_pos _
      · refine Nat.lt_add_right _ (ih ?_)
        rw [step_eq_endRecord_iff] at hend
        rw [Ne, step_eq_recordStart_iff]
        exact fun h => hend ⟨h.1, h.2, hplace⟩

theorem length_readFrom_first (hb : isLineEnd b = false) (bytes : List UInt8) :
    0 < (readFrom .recordStart [] [] (b :: bytes)).length := by
  rw [length_readFrom_cons]
  apply Nat.lt_add_right
  apply length_readFrom_pos
  simp [step_eq_recordStart_iff, hb]

theorem lineEnds_eq (hafter : place.after bytes = .recordStart) :
    lineEnds bytes = (readFrom place [] [] bytes).length +
      lineEndsAt .recordStart place bytes + lineEndsAt .quoted place bytes := by
  fun_induction lineEnds bytes generalizing place with
  | case1 rest ih =>
      have hsecond : ((place.step 0x0D).1.step 0x0A).2 ≠ .endRecord := by cases place <;> decide
      have hcount : (readFrom place [] [] (0x0D :: 0x0A :: rest)).length =
          (readFrom (place.after [0x0D, 0x0A]) [] [] rest).length +
            if (place.step 0x0D).2 = .endRecord then 1 else 0 := by
        rw [length_readFrom_cons, length_readFrom_cons, if_neg hsecond]
        rfl
      have hreturn : isLineEnd 0x0D = true := rfl
      have hmore := @ih (place.after [0x0D, 0x0A]) hafter
      rw [hmore, hcount, lineEndsAt, lineEndsAt]
      simp only [step_eq_endRecord_iff, hreturn]
      cases place <;> simp <;> omega
  | case2 b rest hpair ih =>
      have hmore := @ih (place.step b).1 hafter
      rw [hmore, length_readFrom_cons, lineEndsAt, lineEndsAt]
      · simp only [step_eq_endRecord_iff]
        cases isLineEnd b <;> cases place <;> simp <;> omega
      · exact hpair
      · exact hpair
  | case3 =>
      obtain rfl : place = .recordStart := hafter
      rfl

end Count

section Start

theorem readFrom_append (hafter : place.after before = .recordStart)
    (hstart : place = .recordStart → fields = [] ∧ field = []) (rest : List UInt8) :
    readFrom place fields field (before ++ rest) =
      readFrom place fields field before ++ readFrom .recordStart [] [] rest := by
  induction before generalizing place fields field with
  | nil =>
      obtain rfl : place = .recordStart := hafter
      obtain ⟨rfl, rfl⟩ := hstart rfl
      rfl
  | cons b before ih =>
      have hturn := turns_step place b
      cases hstep : place.step b with
      | mk next action =>
          rw [hstep] at hturn
          have hafter : next.after before = .recordStart := by
            simpa [Place.after, hstep] using hafter
          rw [List.cons_append]
          cases hturn with
          | blank =>
              rw [readFrom_skip hstep, readFrom_skip hstep]
              exact ih hafter hstart
          | lineEnd =>
              rw [readFrom_endRecord hstep, readFrom_endRecord hstep, List.cons_append]
              rw [ih hafter (by simp)]
          | comma =>
              rw [readFrom_endField hstep, readFrom_endField hstep]
              exact ih hafter (by simp)
          | opening | closing =>
              rw [readFrom_skip hstep, readFrom_skip hstep]
              exact ih hafter (by simp)
          | plain | inside | doubled =>
              rw [readFrom_keep hstep, readFrom_keep hstep]
              exact ih hafter (by simp)

theorem StartsAfter.readFrom_eq (h : StartsAfter bytes number before) :
    readFrom .recordStart [] [] bytes =
      readFrom .recordStart [] [] before ++
        readFrom .recordStart [] [] (bytes.drop before.length) := by
  obtain ⟨b, rest, rfl, -⟩ := h.begun
  rw [List.drop_left, readFrom_append h.between fun _ => ⟨rfl, rfl⟩]

theorem StartsAfter.getElem?_eq (h : StartsAfter bytes number before) :
    (readFrom .recordStart [] [] bytes)[number]? =
      (readFrom .recordStart [] [] (bytes.drop before.length)).head? := by
  rw [h.readFrom_eq, List.getElem?_append_right (Nat.le_of_eq h.count), h.count, Nat.sub_self,
    List.head?_eq_getElem?]

theorem StartsAfter.not_longer {more : List UInt8} (h : StartsAfter bytes number before)
    (hother : StartsAfter bytes number (before ++ more)) : more = [] := by
  obtain ⟨b, rest, rfl, hb⟩ := h.begun
  obtain ⟨b', rest', hbytes, -⟩ := hother.begun
  cases more with
  | nil => rfl
  | cons c more =>
      obtain ⟨rfl, -⟩ : b = c ∧ _ := by simpa using hbytes
      have hcount := hother.count
      rw [readFrom_append h.between fun _ => ⟨rfl, rfl⟩, List.length_append, h.count] at hcount
      have := length_readFrom_first hb more
      omega

theorem StartsAfter.unique (h : StartsAfter bytes number before)
    (hother : StartsAfter bytes number other) : other = before := by
  have hstarts {before : List UInt8} (h : StartsAfter bytes number before) : before <+: bytes := by
    obtain ⟨b, rest, rfl, -⟩ := h.begun
    exact List.prefix_append _ _
  rcases List.prefix_or_prefix_of_prefix (hstarts h) (hstarts hother) with ⟨more, rfl⟩ | ⟨more, rfl⟩
  · rw [h.not_longer hother, List.append_nil]
  · rw [hother.not_longer h, List.append_nil]

theorem exists_start (hnumber : number < (readFrom place [] [] bytes).length)
    (hplace : place = .recordStart ∨ 0 < number) :
    ∃ before, place.after before = .recordStart ∧
      (readFrom place [] [] before).length = number ∧
      ∃ b rest, bytes = before ++ b :: rest ∧ isLineEnd b = false := by
  induction bytes generalizing place number with
  | nil =>
      rw [readFrom] at hnumber
      split at hnumber
      · cases hnumber
      · rename_i hbegun
        have hpos := hplace.resolve_left hbegun
        rw [List.reverse_cons, List.reverse_nil, List.nil_append, List.length_singleton] at hnumber
        omega
  | cons b bytes ih =>
      by_cases hhere : place = .recordStart ∧ number = 0 ∧ isLineEnd b = false
      · obtain ⟨rfl, rfl, hb⟩ := hhere
        exact ⟨[], rfl, rfl, b, bytes, rfl, hb⟩
      obtain ⟨earlier, hcount, hnext⟩ : ∃ earlier,
          number = earlier + (if (place.step b).2 = .endRecord then 1 else 0) ∧
          ((place.step b).1 = .recordStart ∨ 0 < earlier) := by
        rw [step_eq_recordStart_iff]
        by_cases hend : (place.step b).2 = .endRecord
        · obtain ⟨hb, hopen, hstart⟩ := step_eq_endRecord_iff.mp hend
          have hpos := hplace.resolve_left hstart
          refine ⟨number - 1, ?_, .inl ⟨hb, hopen⟩⟩
          rw [if_pos hend]
          omega
        · refine ⟨number, by rw [if_neg hend]; rfl, ?_⟩
          by_cases hstart : place = .recordStart
          · subst hstart
            cases hb : isLineEnd b with
            | true => exact .inl ⟨rfl, by simp⟩
            | false => exact .inr (Nat.pos_of_ne_zero fun hzero => hhere ⟨rfl, hzero, hb⟩)
          · exact .inr (hplace.resolve_left hstart)
      have hlater : earlier < (readFrom (place.step b).1 [] [] bytes).length := by
        rw [length_readFrom_cons, hcount] at hnumber
        exact Nat.lt_of_add_lt_add_right hnumber
      obtain ⟨before, hafter, hlength, c, rest, hbytes, hc⟩ := ih hlater hnext
      refine ⟨b :: before, hafter, ?_, c, rest, by rw [hbytes]; rfl, hc⟩
      rw [length_readFrom_cons, hlength, hcount]

theorem exists_startsAfter (h : number < (readFrom .recordStart [] [] bytes).length) :
    ∃ before, StartsAfter bytes number before := by
  obtain ⟨before, hbetween, hcount, hbegun⟩ := exists_start h (.inl rfl)
  exact ⟨before, hbetween, hcount, hbegun⟩

/-- A record starts on the line that follows the records before it, the blank lines and the quoted
line ends. -/
theorem StartsAfter.lineAfter_eq (h : StartsAfter bytes number before) :
    lineAfter before = number + 1 + blankLines before + quotedLineEnds before := by
  rw [lineAfter, lineEnds_eq h.between, h.count, blankLines, quotedLineEnds]
  omega

end Start

end Ledger.Csv
