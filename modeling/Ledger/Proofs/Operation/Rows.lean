import Ledger.Proofs.Csv.Spelling
import Ledger.Proofs.Operation.Texts

/-!
The records of an operation file are understood one by one. What a record is, is decided by the
header, by its number and by its own fields; whatever stands in another record changes nothing.
-/

namespace Ledger.Item

open Csv (Spells dropMark)

variable {bytes : List UInt8} {header record : Csv.Record} {records : List Csv.Record}
  {names : Option (List String)} {number i : ℕ} {m : Malformed}

/-- The names of the columns that a header spells. -/
def columnNames (titles : List (List Char)) : List String :=
  titles.map fun title => String.ofList (trimBlanks title)

/-- The message of an item that is no operation, for the place that it has after the header. -/
def messageAt (place : ℕ) : ItemError → String
  | .record cause => s!"Line {place + 2}: CSV parse error: {cause.message (place + 1)}"
  | .row cause => s!"Line {place + 2}: {cause.message}"

theorem readAll_eq (h : Spells (dropMark bytes) (header :: records)) :
    readAll bytes = (records.zipIdx 1).map fun (record, number) =>
      ofRecord (readTexts 0 header).toOption number record := by
  rw [readAll, h.read_eq]

theorem length_readAll (h : Spells (dropMark bytes) (header :: records)) :
    (readAll bytes).length = records.length := by
  rw [readAll_eq h, List.length_map, List.length_zipIdx]

theorem getElem?_readAll_of_read (h : Csv.read bytes = header :: records) (i : ℕ) :
    (readAll bytes)[i]? = records[i]?.map (ofRecord (readTexts 0 header).toOption (i + 1)) := by
  rw [readAll, h, List.getElem?_map, List.getElem?_zipIdx, Option.map_map, Nat.add_comm 1 i]
  rfl

theorem getElem?_readAll (h : Spells (dropMark bytes) (header :: records)) (i : ℕ) :
    (readAll bytes)[i]? = records[i]?.map (ofRecord (readTexts 0 header).toOption (i + 1)) :=
  getElem?_readAll_of_read h.read_eq i

theorem number_of_ofRecord (h : ofRecord names number record = .error m) : m.number = number := by
  unfold ofRecord at h
  split at h
  · cases h
    rfl
  · rename_i row _
    cases hrow : row.operation with
    | ok operation =>
        rw [hrow] at h
        cases h
    | error cause =>
        rw [hrow] at h
        cases h
        rfl

/-- An operation file has one item for each record, in order, and its errors name the place of the
record in the file. An item depends on the header, the place and the record alone: it is the same in
every file that differs in another record, however the records of either file are spelled. -/
theorem rows_read_independently (titles : List (List Char))
    (h : Spells (dropMark bytes) (titles.map Utf8.encode :: records)) :
    (readAll bytes).length = records.length ∧
    (∀ i record, records[i]? = some record →
      (readAll bytes)[i]? = some (ofRecord (some (columnNames titles)) (i + 1) record)) ∧
    (∀ i m, (readAll bytes)[i]? = some (.error m) →
      m.number = i + 1 ∧ m.message = messageAt i m.cause) ∧
    ∀ i record bytes',
      Spells (dropMark bytes') (titles.map Utf8.encode :: records.set i record) →
        (readAll bytes').length = records.length ∧
          ∀ j, j ≠ i → (readAll bytes')[j]? = (readAll bytes)[j]? := by
  have hnames : (readTexts 0 (titles.map Utf8.encode)).toOption = some (columnNames titles) := by
    rw [readTexts_encode]
    rfl
  refine ⟨length_readAll h, ?_, ?_, ?_⟩
  · intro i record hrecord
    rw [getElem?_readAll h, hnames, hrecord, Option.map_some]
  · intro i m hm
    rw [getElem?_readAll h, Option.map_eq_some_iff] at hm
    obtain ⟨record, -, hm⟩ := hm
    have hnumber := number_of_ofRecord hm
    refine ⟨hnumber, ?_⟩
    rw [Malformed.message, Malformed.line, hnumber]
    cases m.cause <;> rfl
  · intro i record bytes' h'
    refine ⟨by rw [length_readAll h', List.length_set], ?_⟩
    intro j hj
    rw [getElem?_readAll h', getElem?_readAll h, List.getElem?_set_ne hj.symm]

/-- A first record that is no text and runs over two lines, and the same file with another one in
its place. -/
theorem rows_read_independently_damaged :
    let spell (text : String) : List UInt8 := Utf8.encode text.toList
    let others := spell "close,x,1\nclose,7"
    let damaged :=
      spell "op,user,account\n" ++ spell "\"" ++ [0xFF] ++ spell "\n\",7,1\r\n" ++ others
    let mended := spell "op,user,account\n" ++ spell "close,7,1\n" ++ others
    (readAll damaged).length = 3 ∧
      (readAll damaged)[0]? = some (.error ⟨1, .record (.invalidText 0 0)⟩) ∧
      (readAll mended)[0]? = some (.ok (.close 7 1)) ∧
      (∀ j, j ≠ 0 → (readAll mended)[j]? = (readAll damaged)[j]?) ∧
      (readAll damaged)[1]? = some (.error ⟨2, .record (.invalidNumber 1 .invalidDigit)⟩) ∧
      (readAll damaged)[2]? = some (.error ⟨3, .row (.missing .close .account)⟩) := by
  intro spell others damaged mended
  let titles := ["op".toList, "user".toList, "account".toList]
  let records : List Csv.Record :=
    [[[0xFF, Csv.newline], spell "7", spell "1"], [spell "close", spell "x", spell "1"],
      [spell "close", spell "7"]]
  let other : Csv.Record := [spell "close", spell "7", spell "1"]
  have hdamaged : Spells (dropMark damaged) (titles.map Utf8.encode :: records) :=
    (Csv.spells_iff (by decide +kernel)).mpr (by decide +kernel)
  have hmended : Spells (dropMark mended) (titles.map Utf8.encode :: records.set 0 other) :=
    (Csv.spells_iff (by decide +kernel)).mpr (by decide +kernel)
  obtain ⟨hlength, -, -, hset⟩ := rows_read_independently titles hdamaged
  obtain ⟨-, hsame⟩ := hset 0 other mended hmended
  exact ⟨hlength, by decide +kernel, by decide +kernel, hsame, by decide +kernel,
    by decide +kernel⟩

end Ledger.Item
