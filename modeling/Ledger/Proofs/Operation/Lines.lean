import Ledger.Proofs.Csv.Lines
import Ledger.Proofs.Operation.Rows

/-!
The line that an item of an operation file is reported on. Items are counted, and the count is the
line as long as each record before has a line of its own, with no blank lines in between.
-/

namespace Ledger.Item

open Csv (dropMark StartsAfter lineAfter blankLines quotedLineEnds)

variable {bytes : List UInt8} {i : ℕ} {m : Malformed}

theorem exists_record_of_error (h : (readAll bytes)[i]? = some (.error m)) :
    m.number = i + 1 ∧ i + 1 < (Csv.read bytes).length := by
  cases hread : Csv.read bytes with
  | nil =>
      rw [readAll, hread] at h
      cases h
  | cons header records =>
      rw [getElem?_readAll_of_read hread, Option.map_eq_some_iff] at h
      obtain ⟨record, hrecord, hm⟩ := h
      have hi := (List.getElem?_eq_some_iff.mp hrecord).1
      exact ⟨number_of_ofRecord hm, by rw [List.length_cons]; omega⟩

/-- An item that is no operation is reported on the line where its record starts if and only if, up
to there, no line is blank and none ends inside quotes. Every such line makes the number that is
reported smaller by one than the line. -/
theorem reported_line_iff (h : (readAll bytes)[i]? = some (.error m)) :
    m.message = messageAt i m.cause ∧ m.line = i + 2 ∧
    ∃ before, (∀ other, StartsAfter (dropMark bytes) (i + 1) other ↔ other = before) ∧
      (Csv.read bytes)[i + 1]? = (Csv.readFrom .recordStart [] []
        ((dropMark bytes).drop before.length)).head? ∧
      lineAfter before = m.line + blankLines before + quotedLineEnds before ∧
      (m.line = lineAfter before ↔ blankLines before = 0 ∧ quotedLineEnds before = 0) := by
  obtain ⟨hnumber, hlength⟩ := exists_record_of_error h
  have hline : m.line = i + 2 := by rw [Malformed.line, hnumber]
  obtain ⟨before, hstart⟩ := Csv.exists_startsAfter hlength
  have hafter := hstart.lineAfter_eq
  refine ⟨?_, hline, before, ?_, hstart.getElem?_eq, ?_, ?_⟩
  · rw [Malformed.message, hline, hnumber]
    cases m.cause <;> rfl
  · exact fun other => ⟨hstart.unique, fun h => h ▸ hstart⟩
  · omega
  · omega

/-- A blank line and a line end inside quotes: the last record stands on line 5. -/
theorem reported_line_iff_spread :
    let before := Utf8.encode "op,user,account\r\n\r\nclose,1,\"2\n\"\r".toList
    let bytes := before ++ Utf8.encode "withdraw,1,1\n".toList
    let m : Malformed := ⟨2, .row (.unknownVerb "withdraw")⟩
    (readAll bytes)[1]? = some (.error m) ∧ StartsAfter (dropMark bytes) 2 before ∧
      m.line = 3 ∧ lineAfter before = 5 ∧ blankLines before = 1 ∧ quotedLineEnds before = 1 ∧
      m.line ≠ lineAfter before := by
  intro before bytes m
  have hitem : (readAll bytes)[1]? = some (.error m) := by decide +kernel
  have hblank : blankLines before = 1 := by decide +kernel
  have hquoted : quotedLineEnds before = 1 := by decide +kernel
  have hstart : StartsAfter (dropMark bytes) 2 before :=
    ⟨by decide +kernel, by decide +kernel, 0x77, Utf8.encode "ithdraw,1,1\n".toList,
      by decide +kernel, rfl⟩
  obtain ⟨-, hline, start, hunique, -, hafter, hiff⟩ := reported_line_iff hitem
  obtain rfl : before = start := (hunique before).mp hstart
  refine ⟨hitem, hstart, hline, ?_, hblank, hquoted, ?_⟩
  · rw [hafter, hline, hblank, hquoted]
  · rw [Ne, hiff, hblank]
    simp

/-- After a blank line an item is reported on a line that it does not stand on. -/
theorem reported_line_after_blank :
    let before := Utf8.encode "op,user\n\n".toList
    let bytes := before ++ Utf8.encode "withdraw,1\n".toList
    ∃ m, (readAll bytes)[0]? = some (.error m) ∧
      m.message = "Line 2: Unknown operation: 'withdraw'" ∧
      StartsAfter (dropMark bytes) 1 before ∧ lineAfter before = 3 := by
  intro before bytes
  refine ⟨⟨1, .row (.unknownVerb "withdraw")⟩, by decide +kernel, by decide +kernel, ?_,
    by decide +kernel⟩
  exact ⟨by decide +kernel, by decide +kernel, 0x77, Utf8.encode "ithdraw,1\n".toList,
    by decide +kernel, rfl⟩

end Ledger.Item
