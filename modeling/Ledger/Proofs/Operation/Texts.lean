import Ledger.Operation.Reader
import Mathlib.Data.List.TakeWhile

/-!
Fields that hold text are read as that text, without the blanks around it: to trim the bytes first,
where only the blanks of ASCII are known, takes nothing away that the text would keep.
-/

namespace Ledger

variable {α β : Type} {c : Char} {b : UInt8} {cs before mid after : List Char}

theorem dropWhile_flatMap {p : α → Bool} {q : β → Bool} {g : α → List β}
    (h : ∀ a, ∀ b ∈ g a, q b = p a) (hne : ∀ a, g a ≠ []) (as : List α) :
    (as.flatMap g).dropWhile q = (as.dropWhile p).flatMap g := by
  induction as with
  | nil => rfl
  | cons a as ih =>
      rw [List.flatMap_cons, List.dropWhile_cons]
      split
      · rename_i hp
        rw [List.dropWhile_append_of_pos fun b hb => (h a b hb).trans hp, ih]
      · rename_i hp
        obtain ⟨b, bs, hg⟩ := List.exists_cons_of_ne_nil (hne a)
        have hq : ¬q b = true := by rwa [h a b (by simp [hg])]
        rw [List.flatMap_cons, hg, List.cons_append, List.dropWhile_cons_of_neg hq]

/-- The blanks that are one byte each and are known as such before a field is known to be text. -/
def isAsciiBlank (c : Char) : Bool :=
  c.val.toNat = 0x20 || c.val.toNat = 0x09 || c.val.toNat = 0x0A || c.val.toNat = 0x0C ||
    c.val.toNat = 0x0D

theorem isBlank_of_isAsciiBlank (h : isAsciiBlank c = true) : isBlank c = true := by
  simp only [isAsciiBlank, Bool.or_eq_true, decide_eq_true_eq] at h
  simp only [isBlank, Char.toNat, Bool.or_eq_true, Bool.and_eq_true, decide_eq_true_eq, beq_iff_eq]
  omega

theorem le_of_mem_utf8EncodeChar (h : b ∈ String.utf8EncodeChar c) (hc : 0x7F < c.val.toNat) :
    0x80 ≤ b.toNat := by
  unfold String.utf8EncodeChar at h
  simp only at h
  split at h
  · omega
  split at h
  · simp only [List.mem_cons, List.not_mem_nil, or_false] at h
    rcases h with rfl | rfl <;> simp <;> omega
  split at h
  · simp only [List.mem_cons, List.not_mem_nil, or_false] at h
    rcases h with rfl | rfl | rfl <;> simp <;> omega
  · simp only [List.mem_cons, List.not_mem_nil, or_false] at h
    rcases h with rfl | rfl | rfl | rfl <;> simp <;> omega

theorem toNat_of_mem_utf8EncodeChar (h : b ∈ String.utf8EncodeChar c) (hc : c.val.toNat ≤ 0x7F) :
    b.toNat = c.val.toNat := by
  rw [String.utf8EncodeChar, if_pos hc, List.mem_singleton] at h
  rw [h, UInt8.toNat_ofNat']
  exact Nat.mod_eq_of_lt (by omega)

theorem isBlankByte_iff : isBlankByte b = true ↔
    b.toNat = 0x20 ∨ b.toNat = 0x09 ∨ b.toNat = 0x0A ∨ b.toNat = 0x0C ∨ b.toNat = 0x0D := by
  simp [isBlankByte, ← UInt8.toNat_inj, or_assoc]

theorem isBlankByte_of_mem (h : b ∈ String.utf8EncodeChar c) : isBlankByte b = isAsciiBlank c := by
  rw [Bool.eq_iff_iff, isBlankByte_iff]
  simp only [isAsciiBlank, Bool.or_eq_true, decide_eq_true_eq, or_assoc]
  rcases Nat.lt_or_ge 0x7F c.val.toNat with hlong | hshort
  · have := le_of_mem_utf8EncodeChar h hlong
    omega
  · rw [toNat_of_mem_utf8EncodeChar h hshort]

theorem dropWhile_encode (cs : List Char) :
    (Utf8.encode cs).dropWhile isBlankByte = Utf8.encode (cs.dropWhile isAsciiBlank) :=
  dropWhile_flatMap (fun _ _ h => isBlankByte_of_mem h) (fun _ => String.utf8EncodeChar_ne_nil) cs

theorem dropWhile_reverse_encode (cs : List Char) :
    (Utf8.encode cs).reverse.dropWhile isBlankByte =
      (Utf8.encode (cs.reverse.dropWhile isAsciiBlank).reverse).reverse := by
  rw [Utf8.encode, Utf8.encode, List.reverse_flatMap, List.reverse_flatMap, List.reverse_reverse]
  apply dropWhile_flatMap
  · exact fun _ _ h => isBlankByte_of_mem (List.mem_reverse.mp h)
  · simp

theorem trimBytes_encode (cs : List Char) :
    trimBytes (Utf8.encode cs) =
      Utf8.encode ((cs.dropWhile isAsciiBlank).reverse.dropWhile isAsciiBlank).reverse := by
  rw [trimBytes, dropWhile_encode, dropWhile_reverse_encode, List.reverse_reverse]

theorem dropBlanks_append (h : ∀ c ∈ before, isBlank c = true) (cs : List Char) :
    dropBlanks (before ++ cs) = dropBlanks cs :=
  List.dropWhile_append_of_pos h

theorem trimBlanks_append (hbefore : ∀ c ∈ before, isBlank c = true)
    (hafter : ∀ c ∈ after, isBlank c = true) (mid : List Char) :
    trimBlanks (before ++ mid ++ after) = trimBlanks mid := by
  rw [trimBlanks, List.append_assoc, dropBlanks_append hbefore, trimBlanks]
  by_cases hmid : ∀ c ∈ mid, isBlank c = true
  · have hall : dropBlanks after = [] := List.dropWhile_eq_nil_iff.mpr hafter
    have hnone : dropBlanks mid = [] := List.dropWhile_eq_nil_iff.mpr hmid
    rw [dropBlanks_append hmid, hall, hnone]
  · have hsome : dropBlanks (mid ++ after) = dropBlanks mid ++ after := by
      rw [dropBlanks, List.dropWhile_append, if_neg, dropBlanks]
      rwa [List.isEmpty_iff, List.dropWhile_eq_nil_iff]
    rw [hsome, List.reverse_append, dropBlanks_append]
    simpa using hafter

theorem trimBlanks_dropWhile (cs : List Char) :
    trimBlanks ((cs.dropWhile isAsciiBlank).reverse.dropWhile isAsciiBlank).reverse =
      trimBlanks cs := by
  have hblank : ∀ {cs : List Char}, ∀ c ∈ cs.takeWhile isAsciiBlank, isBlank c = true :=
    fun c hc => isBlank_of_isAsciiBlank (List.mem_takeWhile_imp hc)
  have hsplit : cs = cs.takeWhile isAsciiBlank ++
      ((cs.dropWhile isAsciiBlank).reverse.dropWhile isAsciiBlank).reverse ++
      ((cs.dropWhile isAsciiBlank).reverse.takeWhile isAsciiBlank).reverse := by
    rw [List.append_assoc, ← List.reverse_append, List.takeWhile_append_dropWhile,
      List.reverse_reverse, List.takeWhile_append_dropWhile]
  conv => rhs; rw [hsplit]
  rw [trimBlanks_append hblank (by simpa using hblank)]

theorem readTexts_encode (field : Nat) (texts : List (List Char)) :
    readTexts field (texts.map Utf8.encode) =
      .ok (texts.map fun cs => String.ofList (trimBlanks cs)) := by
  induction texts generalizing field with
  | nil => rfl
  | cons cs texts ih =>
      rw [List.map_cons, readTexts, trimBytes_encode, Utf8.decode_encode]
      simp only [trimBlanks_dropWhile, ih]
      rfl

end Ledger
