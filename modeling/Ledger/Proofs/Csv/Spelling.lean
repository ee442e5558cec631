import Ledger.Csv

/-!
The ways to spell records: with or without quotes around a field, with any end of a line, with blank
lines in between. Reading finds the records that are spelled, and every input in which the last
quote is closed spells the records that are read from it.
-/

namespace Ledger.Csv

/-- Bytes that end neither a field nor a record. -/
def IsPlain (bytes : List UInt8) : Prop :=
  ∀ b ∈ bytes, b ≠ comma ∧ isLineEnd b = false

/-- The ways to spell a field. What follows the closing quote belongs to the field, and a quote that
does not stand first has no meaning. -/
inductive SpellsField : List UInt8 → Field → Prop
  | plain {field : Field} (hplain : IsPlain field) (hquote : field.head? ≠ some quote) :
      SpellsField field field
  | quoted (inside : Field) {tail : List UInt8} (hplain : IsPlain tail)
      (hquote : tail.head? ≠ some quote) :
      SpellsField (quote :: doubleQuotes inside ++ quote :: tail) (inside ++ tail)

/-- The ways to spell a record. -/
inductive SpellsRecord : List UInt8 → Record → Prop
  | last {bytes : List UInt8} {field : Field} (h : SpellsField bytes field) :
      SpellsRecord bytes [field]
  | more {bytes rest : List UInt8} {field : Field} {record : Record}
      (h : SpellsField bytes field) (hrest : SpellsRecord rest record) :
      SpellsRecord (bytes ++ comma :: rest) (field :: record)

/-- The ways to spell records on lines of their own. Nothing at all is the blank line, and no
record. -/
inductive Spells : List UInt8 → List Record → Prop
  | none : Spells [] []
  | blank {b : UInt8} {rest : List UInt8} {records : List Record} (hend : isLineEnd b = true)
      (h : Spells rest records) : Spells (b :: rest) records
  | last {bytes : List UInt8} {record : Record} (h : SpellsRecord bytes record) (hne : bytes ≠ []) :
      Spells bytes [record]
  | line {bytes rest : List UInt8} {record : Record} {b : UInt8} {records : List Record}
      (h : SpellsRecord bytes record) (hne : bytes ≠ []) (hend : isLineEnd b = true)
      (hrest : Spells rest records) : Spells (bytes ++ b :: rest) (record :: records)

variable {bytes rest : List UInt8} {b : UInt8} {field : Field}
  {record : Record} {records : List Record} {place next : Place} {fields : List Field}

section Step

theorem step_comma (h : place ≠ .quoted) : place.step comma = (.fieldStart, .endField) := by
  cases place <;> first | rfl | exact absurd rfl h

theorem step_lineEnd (h : place ≠ .quoted) (hstart : place ≠ .recordStart)
    (hend : isLineEnd b = true) : place.step b = (.recordStart, .endRecord) := by
  have hcases : b = newline ∨ b = 0x0D := by simpa [isLineEnd] using hend
  rcases hcases with rfl | rfl <;> cases place <;> first | rfl | contradiction

theorem stepPlain_of_plain (hcomma : b ≠ comma) (hend : isLineEnd b = false) :
    Place.stepPlain b = (.plain, .keep) := by
  rw [Place.stepPlain, if_neg hcomma, if_neg (by simp [hend])]

theorem step_plain (h : place ≠ .quoted) (hquote : place = .plain ∨ b ≠ quote) (hcomma : b ≠ comma)
    (hend : isLineEnd b = false) : place.step b = (.plain, .keep) := by
  have hplain := stepPlain_of_plain hcomma hend
  cases place with
  | plain => exact hplain
  | quoted => exact absurd rfl h
  | recordStart | fieldStart | afterQuote =>
      have hb : b ≠ quote := hquote.resolve_left (by simp)
      simp [Place.step, Place.stepStart, hend, hb, hplain]

theorem step_quoted (h : b ≠ quote) : Place.quoted.step b = (.quoted, .keep) :=
  if_neg h

theorem readFrom_skip (h : place.step b = (next, .skip)) (fields : List Field) (field : Field)
    (rest : List UInt8) :
    readFrom place fields field (b :: rest) = readFrom next fields field rest := by
  rw [readFrom, h]

theorem readFrom_keep (h : place.step b = (next, .keep)) (fields : List Field) (field : Field)
    (rest : List UInt8) :
    readFrom place fields field (b :: rest) = readFrom next fields (b :: field) rest := by
  rw [readFrom, h]

theorem readFrom_endField (h : place.step b = (next, .endField)) (fields : List Field)
    (field : Field) (rest : List UInt8) :
    readFrom place fields field (b :: rest) = readFrom next (field.reverse :: fields) [] rest := by
  rw [readFrom, h]

theorem readFrom_endRecord (h : place.step b = (next, .endRecord)) (fields : List Field)
    (field : Field) (rest : List UInt8) :
    readFrom place fields field (b :: rest) =
      (field.reverse :: fields).reverse :: readFrom next [] [] rest := by
  rw [readFrom, h]

end Step

section Read

theorem IsPlain.of_cons (h : IsPlain (b :: bytes)) : IsPlain bytes :=
  fun c hc => h c (List.mem_cons_of_mem b hc)

theorem readFrom_plain (h : IsPlain bytes) (fields : List Field) (field : Field)
    (rest : List UInt8) :
    readFrom .plain fields field (bytes ++ rest) =
      readFrom .plain fields (bytes.reverse ++ field) rest := by
  induction bytes generalizing field with
  | nil => rfl
  | cons b bytes ih =>
      obtain ⟨hcomma, hend⟩ := h b (by simp)
      rw [List.cons_append, readFrom_keep (step_plain (by simp) (.inl rfl) hcomma hend),
        ih h.of_cons, List.reverse_cons, List.append_assoc]
      rfl

theorem readFrom_doubleQuotes (inside : Field) (fields : List Field) (field : Field)
    (rest : List UInt8) :
    readFrom .quoted fields field (doubleQuotes inside ++ rest) =
      readFrom .quoted fields (inside.reverse ++ field) rest := by
  induction inside generalizing field with
  | nil => rfl
  | cons b inside ih =>
      rw [List.reverse_cons, List.append_assoc, List.singleton_append, ← ih]
      by_cases hb : b = quote
      · subst hb
        rfl
      · have hbytes : doubleQuotes (b :: inside) = b :: doubleQuotes inside := by
          simp [doubleQuotes, hb]
        rw [hbytes, List.cons_append, readFrom_keep (step_quoted hb)]

theorem exists_readFrom_plain (hplace : place ≠ .quoted) (hplain : IsPlain bytes)
    (hquote : bytes.head? ≠ some quote) (fields : List Field) (field : Field) :
    ∃ next, next ≠ .quoted ∧ (next = .recordStart → place = .recordStart ∧ bytes = []) ∧
      ∀ rest, readFrom place fields field (bytes ++ rest) =
        readFrom next fields (bytes.reverse ++ field) rest := by
  cases bytes with
  | nil => exact ⟨place, hplace, fun h => ⟨h, rfl⟩, fun _ => rfl⟩
  | cons b bytes =>
      obtain ⟨hcomma, hend⟩ := hplain b (by simp)
      refine ⟨.plain, by simp, by simp, fun rest => ?_⟩
      rw [List.cons_append,
        readFrom_keep (step_plain hplace (.inr (by simpa using hquote)) hcomma hend),
        readFrom_plain hplain.of_cons, List.reverse_cons, List.append_assoc]
      rfl

theorem SpellsField.exists_readFrom (h : SpellsField bytes field)
    (hplace : place = .recordStart ∨ place = .fieldStart) (fields : List Field) :
    ∃ next, next ≠ .quoted ∧ (next = .recordStart → place = .recordStart ∧ bytes = []) ∧
      ∀ rest, readFrom place fields [] (bytes ++ rest) =
        readFrom next fields field.reverse rest := by
  cases h with
  | plain hplain hquote =>
      have hopen : place ≠ .quoted := by rcases hplace with rfl | rfl <;> simp
      simpa using exists_readFrom_plain hopen hplain hquote fields []
  | @quoted inside tail hplain hquote =>
      obtain ⟨next, hnext, hstart, hread⟩ :=
        exists_readFrom_plain (show Place.afterQuote ≠ .quoted by simp) hplain hquote fields
          inside.reverse
      refine ⟨next, hnext, fun h => absurd (hstart h).1 (by simp), fun rest => ?_⟩
      have hopening : place.step quote = (.quoted, .skip) := by
        rcases hplace with rfl | rfl <;> rfl
      have hclosing : Place.quoted.step quote = (.afterQuote, .skip) := rfl
      rw [List.reverse_append, ← hread, List.cons_append, List.cons_append,
        readFrom_skip hopening, List.append_assoc, readFrom_doubleQuotes, List.append_nil,
        List.cons_append, readFrom_skip hclosing]

theorem SpellsRecord.exists_readFrom (h : SpellsRecord bytes record)
    (hplace : place = .recordStart ∨ place = .fieldStart) (fields : List Field) :
    ∃ next field, next ≠ .quoted ∧
      (next = .recordStart → place = .recordStart ∧ bytes = []) ∧
      ∃ fields', (field :: fields').reverse = fields.reverse ++ record ∧
        ∀ rest, readFrom place fields [] (bytes ++ rest) =
          readFrom next fields' field.reverse rest := by
  induction h generalizing place fields with
  | @last bytes field h =>
      obtain ⟨next, hnext, hstart, hread⟩ := h.exists_readFrom hplace fields
      exact ⟨next, field, hnext, hstart, fields, by simp, hread⟩
  | @more bytes rest field record h _ ih =>
      obtain ⟨middle, hmiddle, -, hfirst⟩ := h.exists_readFrom hplace fields
      obtain ⟨next, last, hnext, hstart, fields', hfields, hread⟩ :=
        ih (.inr (Eq.refl Place.fieldStart)) (field :: fields)
      refine ⟨next, last, hnext, fun h => absurd (hstart h).1 (by simp), fields', ?_, ?_⟩
      · rw [hfields, List.reverse_cons, List.append_assoc, List.singleton_append]
      · intro more
        rw [List.append_assoc, hfirst, List.cons_append, readFrom_endField (step_comma hmiddle),
          List.reverse_reverse, hread]

theorem Spells.readFrom_eq (h : Spells bytes records) :
    readFrom .recordStart [] [] bytes = records := by
  induction h with
  | none => rfl
  | @blank b rest records hend _ ih =>
      have hstep : Place.recordStart.step b = (.recordStart, .skip) := if_pos hend
      rw [readFrom_skip hstep, ih]
  | @last bytes record h hne =>
      obtain ⟨next, field, -, hstart, fields, hfields, hread⟩ := h.exists_readFrom (.inl rfl) []
      have hnext : next ≠ .recordStart := fun h => hne (hstart h).2
      rw [← List.append_nil bytes, hread, readFrom, if_neg hnext, List.reverse_reverse, hfields]
      rfl
  | @line bytes rest record b records h hne hend _ ih =>
      obtain ⟨next, field, hopen, hstart, fields, hfields, hread⟩ := h.exists_readFrom (.inl rfl) []
      have hnext : next ≠ .recordStart := fun h => hne (hstart h).2
      rw [hread, readFrom_endRecord (step_lineEnd hopen hnext hend), List.reverse_reverse, hfields,
        ih]
      rfl

theorem Spells.read_eq (h : Spells (dropMark bytes) records) : read bytes = records :=
  h.readFrom_eq

end Read

section Write

theorem spellsField_writeField (field : Field) : SpellsField (writeField field) field := by
  unfold writeField
  split
  · simpa using @SpellsField.quoted field [] (by simp [IsPlain]) (by simp)
  · rename_i hspecial
    have hplain : ∀ b ∈ field, isSpecial b = false := by simpa using hspecial
    simp only [isSpecial, Bool.or_eq_false_iff, decide_eq_false_iff_not] at hplain
    apply SpellsField.plain
    · exact fun b hb => ⟨(hplain b hb).1.1, (hplain b hb).2⟩
    · intro hhead
      exact (hplain quote (List.mem_of_mem_head? hhead)).1.2 rfl

theorem spellsRecord_writeFields (hne : record ≠ []) :
    SpellsRecord ([comma].intercalate (record.map writeField)) record := by
  induction record with
  | nil => exact absurd rfl hne
  | cons field record ih =>
      cases record with
      | nil => simpa [List.intercalate] using SpellsRecord.last (spellsField_writeField field)
      | cons second record =>
          simpa [List.intercalate] using
            SpellsRecord.more (spellsField_writeField field) (ih (List.cons_ne_nil _ _))

theorem writeFields_ne_nil (hne : record ≠ []) (hblank : record ≠ [[]]) :
    [comma].intercalate (record.map writeField) ≠ [] := by
  match record with
  | [] => exact absurd rfl hne
  | [field] =>
      have hfield : field ≠ [] := fun h => hblank (by rw [h])
      simp only [List.intercalate, List.map_cons, List.map_nil, List.intersperse_singleton,
        List.flatten_singleton, writeField]
      split <;> simp [hfield]
  | _ :: _ :: _ => simp [List.intercalate]

theorem spells_write (h : ∀ record ∈ records, record ≠ []) : Spells (write records) records := by
  induction records with
  | nil => exact .none
  | cons record records ih =>
      obtain ⟨hne, hrest⟩ := List.forall_mem_cons.mp h
      have hend : isLineEnd newline = true := rfl
      rw [write, List.flatMap_cons, writeRecord.eq_def]
      split
      · have hempty : SpellsRecord [quote, quote] [[]] :=
          .last (@SpellsField.quoted [] [] (by simp [IsPlain]) (by simp))
        exact .line hempty (by simp) hend (ih hrest)
      · rename_i hblank
        rw [List.append_assoc]
        exact .line (spellsRecord_writeFields hne) (writeFields_ne_nil hne hblank) hend (ih hrest)

end Write

section Complete

/-- What a byte can do at a place, case by case. -/
inductive Turns : Place → UInt8 → Place → Action → Prop
  | blank {b : UInt8} (hend : isLineEnd b = true) : Turns .recordStart b .recordStart .skip
  | opening {place : Place} (hplace : place = .recordStart ∨ place = .fieldStart) :
      Turns place quote .quoted .skip
  | comma {place : Place} (hplace : place ≠ .quoted) : Turns place comma .fieldStart .endField
  | lineEnd {place : Place} {b : UInt8} (hplace : place ≠ .quoted) (hstart : place ≠ .recordStart)
      (hend : isLineEnd b = true) : Turns place b .recordStart .endRecord
  | plain {place : Place} {b : UInt8} (hplace : place ≠ .quoted)
      (hquote : place = .plain ∨ b ≠ quote) (hcomma : b ≠ Csv.comma) (hend : isLineEnd b = false) :
      Turns place b .plain .keep
  | closing : Turns .quoted quote .afterQuote .skip
  | inside {b : UInt8} (hquote : b ≠ quote) : Turns .quoted b .quoted .keep
  | doubled : Turns .afterQuote quote .quoted .keep

theorem turns_step (place : Place) (b : UInt8) :
    Turns place b (place.step b).1 (place.step b).2 := by
  by_cases hplace : place = .quoted
  · subst hplace
    by_cases hquote : b = quote
    · subst hquote
      exact .closing
    · rw [step_quoted hquote]
      exact .inside hquote
  by_cases hend : isLineEnd b = true
  · by_cases hstart : place = .recordStart
    · subst hstart
      have hstep : Place.recordStart.step b = (.recordStart, .skip) := if_pos hend
      rw [hstep]
      exact .blank hend
    · rw [step_lineEnd hplace hstart hend]
      exact .lineEnd hplace hstart hend
  have hend : isLineEnd b = false := by simpa using hend
  by_cases hcomma : b = comma
  · subst hcomma
    rw [step_comma hplace]
    exact .comma hplace
  by_cases hquote : place = .plain ∨ b ≠ quote
  · rw [step_plain hplace hquote hcomma hend]
    exact .plain hplace hquote hcomma hend
  · obtain ⟨hplain, rfl⟩ : place ≠ .plain ∧ b = quote := by simpa using hquote
    cases place with
    | plain => exact absurd rfl hplain
    | quoted => exact absurd rfl hplace
    | recordStart => exact .opening (.inl rfl)
    | fieldStart => exact .opening (.inr rfl)
    | afterQuote => exact .doubled

/-- Where a reader is that has read some bytes of a field, and what it has kept of them. -/
inductive Begun : Place → List UInt8 → Field → Prop
  | record : Begun .recordStart [] []
  | field : Begun .fieldStart [] []
  | plain {bytes : List UInt8} {field : Field}
      (h : ∀ more, IsPlain more → SpellsField (bytes ++ more) (field ++ more)) :
      Begun .plain bytes field
  | quoted (inside : Field) : Begun .quoted (quote :: doubleQuotes inside) inside
  | afterQuote (inside : Field) :
      Begun .afterQuote (quote :: doubleQuotes inside ++ [quote]) inside

theorem Begun.spells (h : Begun place bytes field) (hplace : place ≠ .quoted) :
    SpellsField bytes field := by
  have hnone : IsPlain [] := by simp [IsPlain]
  cases h with
  | record => exact .plain hnone (by simp)
  | field => exact .plain hnone (by simp)
  | plain h => simpa using h [] hnone
  | quoted => exact absurd rfl hplace
  | afterQuote => simpa using @SpellsField.quoted field [] hnone (by simp)

theorem Begun.keep_plain (h : Begun place bytes field) (hplace : place ≠ .quoted)
    (hquote : place = .plain ∨ b ≠ quote) (hcomma : b ≠ comma) (hend : isLineEnd b = false) :
    Begun .plain (bytes ++ [b]) (field ++ [b]) := by
  refine .plain fun more hmore => ?_
  have hplain : IsPlain (b :: more) := List.forall_mem_cons.mpr ⟨⟨hcomma, hend⟩, hmore⟩
  rw [List.append_assoc, List.append_assoc, List.singleton_append]
  cases h with
  | record => exact .plain hplain (by simpa using hquote)
  | field => exact .plain hplain (by simpa using hquote)
  | plain h => exact h _ hplain
  | quoted => exact absurd rfl hplace
  | afterQuote => simpa using @SpellsField.quoted field _ hplain (by simpa using hquote)

/-- Whether some bytes spell fields of a record, last one first, with a comma after each. -/
def Led (bytes : List UInt8) (fields : List Field) : Prop :=
  ∀ more record, SpellsRecord more record → SpellsRecord (bytes ++ more) (fields.reverse ++ record)

theorem led_nil : Led [] [] :=
  fun _ _ h => h

theorem Led.concat {raw : List UInt8} (h : Led bytes fields) (hfield : SpellsField raw field) :
    Led (bytes ++ raw ++ [comma]) (field :: fields) := by
  intro more record hmore
  simpa using h _ _ (.more hfield hmore)

/-- Where the reader is after some bytes. -/
def Place.after (place : Place) (bytes : List UInt8) : Place :=
  bytes.foldl (fun place b => (place.step b).1) place

/-- Whether the last quote that is opened is closed. -/
def IsClosed (bytes : List UInt8) : Prop :=
  Place.recordStart.after bytes ≠ .quoted

instance (bytes : List UInt8) : Decidable (IsClosed bytes) :=
  inferInstanceAs (Decidable (_ ≠ _))

-- the bytes of the record that has been begun are carried along, for they are spelled only once its
-- end is reached
theorem spells_of_begun {before raw : List UInt8} (h : Begun place raw field)
    (hbefore : Led before fields)
    (hstart : if place = .recordStart then before = [] ∧ fields = [] else before ++ raw ≠ [])
    (hclosed : place.after bytes ≠ .quoted) :
    Spells (before ++ raw ++ bytes) (readFrom place fields field.reverse bytes) := by
  induction bytes generalizing place fields field before raw with
  | nil =>
      rw [List.append_nil, readFrom]
      split
      · rename_i hplace
        subst hplace
        obtain ⟨rfl, -⟩ : before = [] ∧ fields = [] := by simpa using hstart
        cases h
        exact .none
      · rename_i hplace
        rw [if_neg hplace] at hstart
        simpa using Spells.last (hbefore _ _ (.last (h.spells hclosed))) hstart
  | cons b bytes ih =>
      have hturn := turns_step place b
      cases hstep : place.step b with
      | mk next action =>
          rw [hstep] at hturn
          have hclosed : next.after bytes ≠ .quoted := by
            simpa [Place.after, hstep] using hclosed
          cases hturn with
          | blank hend =>
              obtain ⟨rfl, rfl⟩ : before = [] ∧ fields = [] := by simpa using hstart
              cases h
              rw [readFrom_skip hstep]
              exact .blank hend (ih .record hbefore (by simp) hclosed)
          | opening hplace =>
              obtain ⟨rfl, rfl⟩ : raw = [] ∧ field = [] := by
                rcases hplace with rfl | rfl <;> cases h <;> simp
              rw [readFrom_skip hstep]
              simpa [doubleQuotes] using ih (.quoted []) hbefore (by simp) hclosed
          | comma hplace =>
              rw [readFrom_endField hstep, List.reverse_reverse]
              simpa using ih .field (hbefore.concat (h.spells hplace)) (by simp) hclosed
          | lineEnd hplace hrecord hend =>
              rw [if_neg hrecord] at hstart
              rw [readFrom_endRecord hstep, List.reverse_reverse]
              have hline := hbefore _ _ (.last (h.spells hplace))
              exact .line (by simpa using hline) hstart hend (ih .record led_nil (by simp) hclosed)
          | plain hplace hquote hcomma hend =>
              rw [readFrom_keep hstep]
              simpa using ih (h.keep_plain hplace hquote hcomma hend) hbefore (by simp) hclosed
          | closing =>
              cases h
              rw [readFrom_skip hstep]
              simpa using ih (.afterQuote field) hbefore (by simp) hclosed
          | inside hquote =>
              cases h
              rw [readFrom_keep hstep]
              have hmore : Begun .quoted (quote :: doubleQuotes (field ++ [b])) (field ++ [b]) :=
                .quoted _
              simpa [doubleQuotes, hquote] using ih hmore hbefore (by simp) hclosed
          | doubled =>
              cases h
              rw [readFrom_keep hstep]
              have hmore :
                  Begun .quoted (quote :: doubleQuotes (field ++ [quote])) (field ++ [quote]) :=
                .quoted _
              simpa [doubleQuotes] using ih hmore hbefore (by simp) hclosed

/-- An input in which the last quote is closed spells the records that are read from it, and no
others. -/
theorem spells_iff (h : IsClosed bytes) :
    Spells bytes records ↔ readFrom .recordStart [] [] bytes = records := by
  refine ⟨Spells.readFrom_eq, ?_⟩
  rintro rfl
  exact spells_of_begun .record led_nil (by simp) h

end Complete

end Ledger.Csv
