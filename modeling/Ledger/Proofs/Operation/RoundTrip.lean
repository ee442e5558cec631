import Ledger.Operation.Writer
import Ledger.Proofs.Decimal.Printing
import Ledger.Proofs.Operation.Rows

/-!
An operation file that is written and read back asks for the same operations. It is read by the
names of its header, which stand for the columns in their order; a row comes back without the texts
that are empty, and no operation needs those.
-/

namespace Ledger

variable {columns : List Column} {texts : List String} {row : Row} {n : ℕ}

theorem readNumber_write (hn : n < 2 ^ 64) (field : ℕ) :
    Draft.readNumber field (String.ofList (Numeral.write n)) = .ok n := by
  rw [Draft.readNumber, Integer.ofText_write hn]
  rfl

theorem Draft.putNamed_eq_putInOrder {seen : List Column} (hnodup : columns.Nodup)
    (hseen : ∀ column ∈ columns, column ∉ seen) (hlength : texts.length = columns.length)
    (draft : Draft) (field : ℕ) :
    draft.putNamed seen field (columns.map Column.name) texts =
      draft.putInOrder field columns texts := by
  induction columns generalizing seen texts draft field with
  | nil => rfl
  | cons column columns ih =>
      obtain ⟨text, texts, rfl⟩ := List.exists_cons_of_length_eq_add_one hlength
      obtain ⟨hcolumn, hnodup⟩ := List.nodup_cons.mp hnodup
      have hnew := hseen column (by simp)
      rw [List.map_cons, putNamed.eq_def, putInOrder]
      simp only [Column.ofName?_name, if_neg hnew]
      cases draft.put column field text with
      | error e => rfl
      | ok draft =>
          refine ih hnodup ?_ (by simpa using hlength) draft (field + 1)
          intro later hlater
          rw [List.mem_cons, not_or]
          exact ⟨fun h => hcolumn (h ▸ hlater), hseen later (List.mem_cons_of_mem _ hlater)⟩

/-- A text that is there and is not empty. -/
def present (text : Option String) : Option String :=
  text.filter (!·.isEmpty)

namespace Row

/-- The row as it is read back. -/
def withoutEmpty (row : Row) : Row :=
  { row with
    amount := present row.amount
    product := present row.product
    currency := present row.currency
    description := present row.description }

/-- Whether a row can be written so that nothing of it is lost: its numbers have 64 bits, and no
blanks stand around its texts. -/
structure Writable (row : Row) : Prop where
  user_lt : row.user < 2 ^ 64
  account_lt : ∀ id, row.account = some id → id < 2 ^ 64
  destination_lt : ∀ id, row.destination = some id → id < 2 ^ 64
  trim_verb : trim row.verb = row.verb
  trim_text : ∀ text,
    some text ∈ [row.amount, row.product, row.currency, row.description] → trim text = text

end Row

theorem trim_toText (amount : Decimal) : trim amount.toText = amount.toText := by
  rw [trim, amount.trimBlanks_toText, String.ofList_toList]

theorem trim_name (verb : Verb) : trim verb.name = verb.name := by
  cases verb <;> decide

theorem Row.Writable.trimBlanks_text (h : row.Writable) (column : Column) :
    trimBlanks (row.text column) = row.text column := by
  have hnumber (id : Option ℕ) :
      trimBlanks (id.elim [] Numeral.write) = id.elim [] Numeral.write := by
    cases id with
    | none => rfl
    | some id => exact Numeral.trimBlanks_write id
  have htext (text : Option String)
      (hmem : text ∈ [row.amount, row.product, row.currency, row.description]) :
      trimBlanks (text.getD "").toList = (text.getD "").toList := by
    cases text with
    | none => rfl
    | some text => exact trimBlanks_of_trim (h.trim_text text hmem)
  cases column with
  | verb => exact trimBlanks_of_trim h.trim_verb
  | user => exact Numeral.trimBlanks_write row.user
  | account => exact hnumber row.account
  | destination => exact hnumber row.destination
  | amount => exact htext row.amount (by simp)
  | product => exact htext row.product (by simp)
  | currency => exact htext row.currency (by simp)
  | description => exact htext row.description (by simp)

/-- The draft with what a row has under a column. -/
def Draft.enter (draft : Draft) (row : Row) : Column → Draft
  | .verb => { draft with verb := some row.verb }
  | .user => { draft with user := some row.user }
  | .account => { draft with account := row.account.or draft.account }
  | .destination => { draft with destination := row.destination.or draft.destination }
  | .amount => { draft with amount := (present row.amount).or draft.amount }
  | .product => { draft with product := (present row.product).or draft.product }
  | .currency => { draft with currency := (present row.currency).or draft.currency }
  | .description => { draft with description := (present row.description).or draft.description }

theorem isEmpty_ofList_write (n : ℕ) : (String.ofList (Numeral.write n)).isEmpty = false := by
  simp [Numeral.write_ne_nil]

theorem or_present (text old : Option String) :
    (present text).or old = if (text.getD "").isEmpty then old else some (text.getD "") := by
  cases text with
  | none => rfl
  | some text => by_cases h : text.isEmpty = true <;> simp [present, Option.filter, h]

theorem Draft.put_text (h : row.Writable) (draft : Draft) (column : Column) (field : ℕ) :
    draft.put column field (String.ofList (row.text column)) = .ok (draft.enter row column) := by
  cases column with
  | verb => simp [put, enter, Row.text]
  | user =>
      rw [put, Row.text, readNumber_write h.user_lt]
      rfl
  | account =>
      cases hid : row.account with
      | none => simp [put, enter, Row.text, hid]
      | some id =>
          have hread := readNumber_write (h.account_lt id hid) field
          rw [put, Row.text, hid, Option.elim_some, isEmpty_ofList_write, hread, enter, hid]
          rfl
  | destination =>
      cases hid : row.destination with
      | none => simp [put, enter, Row.text, hid]
      | some id =>
          have hread := readNumber_write (h.destination_lt id hid) field
          rw [put, Row.text, hid, Option.elim_some, isEmpty_ofList_write, hread, enter, hid]
          rfl
  | amount | product | currency | description =>
      rw [Row.text, String.ofList_toList, put, enter, or_present]
      split <;> rfl

theorem Draft.putInOrder_texts (h : row.Writable) (columns : List Column) (draft : Draft)
    (field : ℕ) :
    draft.putInOrder field columns (columns.map fun column => String.ofList (row.text column)) =
      .ok (columns.foldl (fun draft column => draft.enter row column) draft) := by
  induction columns generalizing draft field with
  | nil => rfl
  | cons column columns ih =>
      rw [List.map_cons, putInOrder, put_text h]
      exact ih (draft.enter row column) (field + 1)

theorem Draft.row_enter_all (row : Row) :
    (Column.all.foldl (fun (draft : Draft) column => draft.enter row column) {}).row =
      .ok row.withoutEmpty := by
  simp [Column.all, enter, Draft.row, Row.withoutEmpty]

theorem readTexts_header :
    (readTexts 0 Operation.header).toOption = some (Column.all.map Column.name) := by
  have hread := readTexts_encode 0 (Column.all.map fun column => column.name.toList)
  rw [List.map_map, List.map_map] at hread
  rw [Operation.header]
  exact (congrArg Except.toOption hread).trans (by decide)

theorem Row.ofRecord_record (h : row.Writable) :
    Row.ofRecord (some (Column.all.map Column.name)) row.record = .ok row.withoutEmpty := by
  have htexts : readTexts 0 row.record =
      .ok (Column.all.map fun column => String.ofList (row.text column)) := by
    have hread := readTexts_encode 0 (Column.all.map row.text)
    rw [List.map_map, List.map_map] at hread
    rw [record]
    exact hread.trans (by simp [Function.comp_def, h.trimBlanks_text])
  rw [ofRecord, htexts]
  dsimp only
  rw [Draft.putNamed_eq_putInOrder (by decide) (by simp) (by simp), Draft.putInOrder_texts h]
  exact Draft.row_enter_all row

theorem present_some {s : String} (h : s ≠ "") : present (some s) = some s := by
  simp [present, Option.filter, h]

theorem getD_present (text : Option String) : (present text).getD "" = text.getD "" := by
  cases text with
  | none => rfl
  | some text => by_cases h : text = "" <;> simp [present, Option.filter, h]

theorem Row.readAmount_toText {amount : Decimal} (h : ¬amount.IsNegativeZero)
    (hrow : row.amount = some amount.toText) (verb : Verb) : row.readAmount verb = .ok amount := by
  rw [readAmount, hrow]
  simp [trim_toText, amount.toText_ne_empty, Decimal.ofString?_toText h]

namespace Operation

/-- Whether a name can be given in a field that must not be empty. -/
def IsName (s : String) : Prop :=
  s ≠ "" ∧ trim s = s

instance (s : String) : Decidable (IsName s) :=
  inferInstanceAs (Decidable (_ ∧ _))

/-- Whether an operation can be written so that nothing of it is lost. -/
def Writable : Operation → Prop
  | openAccount user product currency => user < 2 ^ 64 ∧ IsName product ∧ IsName currency
  | deposit user account amount => user < 2 ^ 64 ∧ account < 2 ^ 64 ∧ ¬amount.IsNegativeZero
  | transfer r =>
      r.user < 2 ^ 64 ∧ r.source < 2 ^ 64 ∧ r.destination < 2 ^ 64 ∧ ¬r.amount.IsNegativeZero ∧
        trim r.description = r.description
  | close user account => user < 2 ^ 64 ∧ account < 2 ^ 64

instance : DecidablePred Writable
  | openAccount .. => inferInstanceAs (Decidable (_ ∧ _))
  | deposit .. => inferInstanceAs (Decidable (_ ∧ _))
  | transfer _ => inferInstanceAs (Decidable (_ ∧ _))
  | close .. => inferInstanceAs (Decidable (_ ∧ _))

variable {operation : Operation} {operations : List Operation} {bytes : List UInt8}

theorem row_writable (h : operation.Writable) : operation.row.Writable := by
  cases operation with
  | openAccount user product currency =>
      obtain ⟨huser, hproduct, hcurrency⟩ := h
      refine ⟨huser, by simp [row], by simp [row], trim_name _, ?_⟩
      simp [row, hproduct.2, hcurrency.2]
  | deposit user account amount =>
      obtain ⟨huser, haccount, -⟩ := h
      refine ⟨huser, by simpa [row] using haccount, by simp [row], trim_name _, ?_⟩
      simp [row, trim_toText]
  | transfer r =>
      obtain ⟨huser, hsource, hdestination, -, hdescription⟩ := h
      refine ⟨huser, by simpa [row] using hsource, by simpa [row] using hdestination,
        trim_name _, ?_⟩
      simp [row, trim_toText, hdescription]
  | close user account =>
      refine ⟨h.1, by simpa [row] using h.2, by simp [row], trim_name _, ?_⟩
      simp [row]

/-- The row of an operation asks for it, also without the texts that are empty. -/
theorem operation_row (h : operation.Writable) :
    operation.row.withoutEmpty.operation = .ok operation := by
  have hamount (amount : Decimal) : present (some amount.toText) = some amount.toText :=
    present_some amount.toText_ne_empty
  cases operation with
  | openAccount user product currency =>
      obtain ⟨-, hproduct, hcurrency⟩ := h
      simp only [Row.operation, row, Row.withoutEmpty, Verb.ofText?_name, present_some hproduct.1,
        present_some hcurrency.1]
      rfl
  | deposit user account amount =>
      have hread :
          (deposit user account amount).row.withoutEmpty.readAmount .deposit = .ok amount :=
        Row.readAmount_toText h.2.2 (hamount amount) .deposit
      rw [Row.operation, hread]
      simp only [row, Row.withoutEmpty, Verb.ofText?_name]
      rfl
  | transfer r =>
      have hread (verb : Verb) : (transfer r).row.withoutEmpty.readAmount verb = .ok r.amount :=
        Row.readAmount_toText h.2.2.2.1 (hamount r.amount) verb
      have htransfer (verb : Verb) :
          (transfer r).row.withoutEmpty.readTransfer verb r.kind = .ok r := by
        rw [Row.readTransfer, hread]
        simp only [row, Row.withoutEmpty, getD_present]
        rfl
      obtain ⟨user, source, destination, amount, description, kind⟩ := r
      cases kind with
      | internal | external =>
          rw [Row.operation, row, Row.withoutEmpty, Verb.ofText?_name]
          exact congrArg (Except.map transfer) (htransfer _)
  | close user account =>
      simp only [Row.operation, row, Row.withoutEmpty, Verb.ofText?_name]
      rfl

theorem ofRecord_row (h : operation.Writable) (number : ℕ) :
    Item.ofRecord (some (Column.all.map Column.name)) number operation.row.record =
      .ok operation := by
  rw [Item.ofRecord, Row.ofRecord_record (row_writable h)]
  dsimp only
  rw [operation_row h]
  rfl

theorem dropMark_writeAll (operations : List Operation) :
    Csv.dropMark (writeAll operations) = writeAll operations := by
  have hheader : Csv.writeRecord header = 0x6F :: (Csv.writeRecord header).tail := by
    decide +kernel
  rw [writeAll, Csv.write, List.flatMap_cons, hheader]
  rfl

theorem spells_writeAll (operations : List Operation) :
    Csv.Spells (Csv.dropMark (writeAll operations))
      (header :: operations.map fun operation => operation.row.record) := by
  rw [dropMark_writeAll]
  apply Csv.spells_write
  intro record hrecord
  rcases List.mem_cons.mp hrecord with rfl | hrecord
  · simp [header, Column.all]
  · obtain ⟨operation, -, rfl⟩ := List.mem_map.mp hrecord
    simp [Row.record, Column.all]

theorem readAll_of_spells (h : ∀ operation ∈ operations, operation.Writable)
    (hspells : Csv.Spells (Csv.dropMark bytes)
      (header :: operations.map fun operation => operation.row.record)) :
    Item.readAll bytes = operations.map .ok := by
  apply List.ext_getElem?
  intro i
  rw [Item.getElem?_readAll hspells, readTexts_header, List.getElem?_map, List.getElem?_map,
    Option.map_map]
  cases hoperation : operations[i]? with
  | none => rfl
  | some operation =>
      exact congrArg some (ofRecord_row (h operation (List.mem_of_getElem? hoperation)) (i + 1))

/-- The file that is written for operations is read back as these operations, in order and without
an error, and so is every other file that spells the same records. -/
theorem reading_undoes_writing (h : ∀ operation ∈ operations, operation.Writable) :
    Item.readAll (writeAll operations) = operations.map .ok ∧
    ∀ bytes, Csv.Spells (Csv.dropMark bytes)
        (header :: operations.map fun operation => operation.row.record) →
      Item.readAll bytes = operations.map .ok :=
  ⟨readAll_of_spells h (spells_writeAll operations), fun _ => readAll_of_spells h⟩

/-- The largest numbers, the finest amount, a number of places that is kept, and descriptions that
are empty or hold all that has a meaning of its own in a file; and a file that is spelled otherwise,
with a mark in front, a blank line and needless quotes. -/
theorem reading_undoes_writing_extremes :
    let largest : Decimal := ⟨false, 2 ^ 96 - 1, 0, by decide, by decide⟩
    let finest : Decimal := ⟨true, 1, 28, by decide, by decide⟩
    let padded : Decimal := ⟨false, 100, 2, by decide, by decide⟩
    let id := 2 ^ 64 - 1
    let operations : List Operation :=
      [.openAccount id "current, joint" "EUR", .deposit id 0 largest,
        .transfer ⟨id, 1, 2, finest, "rent, \"May\"\r\n→ 終わり", .external⟩,
        .transfer ⟨0, 2, 1, padded, "", .internal⟩, .close 0 id]
    let marked := [0xEF, 0xBB, 0xBF] ++ Utf8.encode
      ("op,user,account,to,amount,account_type,currency,description\r\n\r\n" ++
        "\"close\",0,\"7\",,,,,\"\"").toList
    (∀ operation ∈ operations, operation.Writable) ∧
      Item.readAll (writeAll operations) = operations.map .ok ∧
      Item.readAll marked = [.ok (.close 0 7)] := by
  intro largest finest padded id operations marked
  have h : ∀ operation ∈ operations, operation.Writable := by decide +kernel
  have hclose : ∀ operation ∈ [close 0 7], operation.Writable := by decide
  have hmarked : Csv.Spells (Csv.dropMark marked) [header, (close 0 7).row.record] :=
    (Csv.spells_iff (by decide +kernel)).mpr (by decide +kernel)
  exact ⟨h, (reading_undoes_writing h).1, (reading_undoes_writing hclose).2 marked hmarked⟩

end Operation

end Ledger
