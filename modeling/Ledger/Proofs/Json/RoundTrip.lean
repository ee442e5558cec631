import Ledger.Proofs.Json.Tokens

/-!
A value that is written is read back, if its numbers are written as numbers are. The text has room
for twice its length of nesting, which is more than any value in it needs.
-/

namespace Ledger.Json

variable {rest : List Char} {value : Json} {items : List Json} {members : List Member}
  {depth : Nat}

/-- Whether the text of a value is JSON: its numbers are written as numbers are. -/
inductive IsValid : Json → Prop
  | null : IsValid null
  | bool (value : Bool) : IsValid (bool value)
  | number {literal : List Char} (h : IsNumber literal) : IsValid (number literal)
  | string (text : String) : IsValid (string text)
  | unpaired : IsValid unpaired
  | array {items : List Json} (h : ∀ item ∈ items, IsValid item) : IsValid (array items)
  | object {members : List Member} (h : ∀ member ∈ members, IsValid member.2) :
      IsValid (object members)

/-- Whether a value is read back from its text wherever that stands, if there is room for twice its
length of nesting. -/
def IsReadable (value : Json) : Prop :=
  ∀ depth rest, 2 * value.write.length ≤ depth → EndsNumber rest →
    readValue? (depth + 1) (value.write ++ rest) = some (value, rest)

theorem not_mem_of_isNumber {c : Char} (h : c = '-' ∨ (Numeral.digit? c).isSome = true) :
    isSpace c = false ∧ c ∉ ['"', '[', ']', '\x7b', 'n', 't', 'f'] := by
  have hne (d : Char) (hd : ¬(d = '-' ∨ (Numeral.digit? d).isSome = true)) : c ≠ d :=
    fun heq => hd (heq ▸ h)
  constructor
  · simp [isSpace, hne ' ' (by decide), hne '\n' (by decide), hne '\t' (by decide),
      hne '\r' (by decide)]
  · simp [hne '"' (by decide), hne '[' (by decide), hne ']' (by decide), hne '\x7b' (by decide),
      hne 'n' (by decide), hne 't' (by decide), hne 'f' (by decide)]

theorem readValue?_number {literal : List Char} (h : IsNumber literal) (hrest : EndsNumber rest)
    (depth : Nat) : readValue? (depth + 1) (literal ++ rest) = some (number literal, rest) := by
  have hread := h.readNumber?_append hrest
  obtain ⟨c, cs, rfl, hc⟩ := h.exists_cons
  obtain ⟨hspace, hne⟩ := not_mem_of_isNumber hc
  simp only [List.mem_cons, not_or] at hne
  obtain ⟨hquote, hbracket, -, hbrace, hn, ht, hf, -⟩ := hne
  have hdrop : dropSpaces (c :: (cs ++ rest)) = c :: (cs ++ rest) := by
    simp [dropSpaces, hspace]
  rw [List.cons_append] at hread ⊢
  simp [readValue?, hdrop, hread, hquote, hbracket, hbrace, hn, ht, hf]

theorem IsValid.exists_write (h : value.IsValid) :
    ∃ c cs, value.write = c :: cs ∧ isSpace c = false ∧ c ≠ ']' := by
  cases h with
  | null | string | unpaired | array | object => exact ⟨_, _, rfl, rfl, by decide⟩
  | bool value => cases value <;> exact ⟨_, _, rfl, rfl, by decide⟩
  | number h =>
      obtain ⟨c, cs, rfl, hc⟩ := h.exists_cons
      obtain ⟨hspace, hne⟩ := not_mem_of_isNumber hc
      exact ⟨c, cs, rfl, hspace, fun h => hne (by simp [h])⟩

theorem writeItems_cons (item : Json) (hne : items ≠ []) :
    writeItems (item :: items) = item.write ++ ',' :: writeItems items := by
  rw [writeItems]
  exact hne

theorem writeMembers_cons (name : Option String) (value : Json) (hne : members ≠ []) :
    writeMembers ((name, value) :: members) =
      writeName name ++ ':' :: (value.write ++ ',' :: writeMembers members) := by
  rw [writeMembers]
  · simp
  · exact hne

theorem endsNumber_of_mem {c : Char} (h : c ∈ [',', ']', '\x7d']) (rest : List Char) :
    EndsNumber (c :: rest) := by
  simp only [List.mem_cons, List.not_mem_nil, or_false] at h
  rcases h with rfl | rfl | rfl <;> exact endsNumber_cons rfl (by decide) (by decide) (by decide) _

theorem readItems?_write (hitems : ∀ item ∈ items, item.IsReadable) (hne : items ≠ [])
    (hdepth : 2 * (writeItems items).length ≤ depth) (rest : List Char) :
    readItems? (depth + 2) (writeItems items ++ ']' :: rest) = some (items, rest) := by
  induction items generalizing depth with
  | nil => exact absurd rfl hne
  | cons item items ih =>
      obtain ⟨hitem, hitems⟩ := List.forall_mem_cons.mp hitems
      by_cases hlast : items = []
      · subst hlast
        rw [writeItems] at hdepth ⊢
        rw [readItems?, hitem depth _ hdepth (endsNumber_of_mem (by simp) rest)]
        rfl
      · rw [writeItems_cons item hlast] at hdepth ⊢
        rw [List.length_append, List.length_cons] at hdepth
        obtain ⟨depth, rfl⟩ : ∃ less, depth = less + 1 := ⟨depth - 1, by omega⟩
        rw [List.append_assoc, List.cons_append, readItems?,
          hitem (depth + 1) _ (by omega) (endsNumber_of_mem (by simp) _)]
        change (readItems? (depth + 2) (writeItems items ++ ']' :: rest)).map _ = _
        rw [ih hitems hlast (by omega)]
        rfl

variable {name : Option String} {text : List Char}

theorem readMembers?_last (h : readValue? depth text = some (value, '\x7d' :: rest)) :
    readMembers? (depth + 1) (writeName name ++ ':' :: text) = some ([(name, value)], rest) := by
  obtain ⟨body, hbody, hname⟩ := exists_writeName name (':' :: text)
  have hquote : dropSpaces ('"' :: body) = '"' :: body := rfl
  have hcolon : dropSpaces (':' :: text) = ':' :: text := rfl
  have hbrace : dropSpaces ('\x7d' :: rest) = '\x7d' :: rest := rfl
  simp [hbody, readMembers?, hquote, hname, hcolon, h, hbrace, Function.comp_def]

theorem readMembers?_more {more : List Char} (h : readValue? depth text = some (value, ',' :: more))
    (hmore : readMembers? depth more = some (members, rest)) :
    readMembers? (depth + 1) (writeName name ++ ':' :: text) =
      some ((name, value) :: members, rest) := by
  obtain ⟨body, hbody, hname⟩ := exists_writeName name (':' :: text)
  have hquote : dropSpaces ('"' :: body) = '"' :: body := rfl
  have hcolon : dropSpaces (':' :: text) = ':' :: text := rfl
  have hcomma : dropSpaces (',' :: more) = ',' :: more := rfl
  simp [hbody, readMembers?, hquote, hname, hcolon, h, hcomma, hmore, Function.comp_def]

theorem readMembers?_write (hmembers : ∀ member ∈ members, member.2.IsReadable) (hne : members ≠ [])
    (hdepth : 2 * (writeMembers members).length ≤ depth) (rest : List Char) :
    readMembers? (depth + 2) (writeMembers members ++ '\x7d' :: rest) = some (members, rest) := by
  induction members generalizing depth with
  | nil => exact absurd rfl hne
  | cons member members ih =>
      obtain ⟨name, value⟩ := member
      obtain ⟨hvalue, hmembers⟩ := List.forall_mem_cons.mp hmembers
      have hvalue : value.IsReadable := hvalue
      by_cases hlast : members = []
      · subst hlast
        rw [writeMembers, List.length_append, List.length_cons] at hdepth
        rw [writeMembers, List.append_assoc, List.cons_append]
        exact readMembers?_last (hvalue depth _ (by omega) (endsNumber_of_mem (by simp) rest))
      · rw [writeMembers_cons name value hlast, List.length_append, List.length_cons,
          List.length_append, List.length_cons] at hdepth
        obtain ⟨depth, rfl⟩ : ∃ less, depth = less + 1 := ⟨depth - 1, by omega⟩
        rw [writeMembers_cons name value hlast, List.append_assoc, List.cons_append,
          List.append_assoc, List.cons_append]
        exact readMembers?_more (hvalue (depth + 1) _ (by omega) (endsNumber_of_mem (by simp) _))
          (ih hmembers hlast (by omega))

theorem readValue?_array {c : Char} {cs : List Char} (hspace : isSpace c = false) (hc : c ≠ ']')
    (h : readItems? depth (c :: cs) = some (items, rest)) :
    readValue? (depth + 1) ('[' :: c :: cs) = some (array items, rest) := by
  have hbracket : dropSpaces ('[' :: c :: cs) = '[' :: c :: cs := rfl
  have hfirst : dropSpaces (c :: cs) = c :: cs := by simp [dropSpaces, hspace]
  simp [readValue?, hbracket, hfirst, hc, h]

theorem readValue?_object {cs : List Char}
    (h : readMembers? depth ('"' :: cs) = some (members, rest)) :
    readValue? (depth + 1) ('\x7b' :: '"' :: cs) = some (object members, rest) := by
  have hbrace : dropSpaces ('\x7b' :: '"' :: cs) = '\x7b' :: '"' :: cs := rfl
  have hquote : dropSpaces ('"' :: cs) = '"' :: cs := rfl
  simp [readValue?, hbrace, hquote, h]

theorem exists_writeItems (h : ∀ item ∈ items, item.IsValid) (hne : items ≠ []) :
    ∃ c cs, writeItems items = c :: cs ∧ isSpace c = false ∧ c ≠ ']' := by
  obtain ⟨item, items, rfl⟩ := List.exists_cons_of_ne_nil hne
  obtain ⟨c, cs, hwrite, hc⟩ := (h item (by simp)).exists_write
  by_cases hlast : items = []
  · subst hlast
    exact ⟨c, cs, by rw [writeItems, hwrite], hc⟩
  · refine ⟨c, cs ++ ',' :: writeItems items, ?_, hc⟩
    rw [writeItems_cons item hlast, hwrite, List.cons_append]

theorem exists_writeMembers (hne : members ≠ []) : ∃ cs, writeMembers members = '"' :: cs := by
  obtain ⟨⟨name, value⟩, members, rfl⟩ := List.exists_cons_of_ne_nil hne
  by_cases hlast : members = []
  · subst hlast
    obtain ⟨cs, hname, -⟩ := exists_writeName name (':' :: value.write)
    exact ⟨cs, by rw [writeMembers, hname]⟩
  · obtain ⟨cs, hname, -⟩ :=
      exists_writeName name (':' :: (value.write ++ ',' :: writeMembers members))
    exact ⟨cs, by rw [writeMembers_cons name value hlast, hname]⟩

theorem isReadable_of_isValid (h : value.IsValid) : value.IsReadable := by
  induction h with
  | null => exact fun _ _ _ _ => rfl
  | bool value => cases value <;> exact fun _ _ _ _ => rfl
  | number h => exact fun depth _ _ hrest => readValue?_number h hrest depth
  | string text =>
      intro depth rest _ _
      obtain ⟨body, hbody, hread⟩ := exists_writeName (some text) rest
      have hquote : dropSpaces ('"' :: body) = '"' :: body := rfl
      change readValue? (depth + 1) (writeName (some text) ++ rest) = _
      simp [hbody, readValue?, hquote, hread]
  | unpaired => exact fun _ _ _ _ => rfl
  | @array items h ih =>
      intro depth rest hdepth _
      by_cases hne : items = []
      · subst hne
        rfl
      · rw [write, List.length_append, List.length_cons] at hdepth
        obtain ⟨depth, rfl⟩ : ∃ less, depth = less + 2 := ⟨depth - 2, by omega⟩
        have hroom : 2 * (writeItems items).length ≤ depth := by omega
        have hread := readItems?_write ih hne hroom rest
        obtain ⟨c, cs, hitems, hspace, hc⟩ := exists_writeItems h hne
        rw [hitems, List.cons_append] at hread
        have htext : (array items).write ++ rest = '[' :: c :: (cs ++ ']' :: rest) := by
          simp [write, hitems]
        rw [htext]
        exact readValue?_array hspace hc hread
  | @object members h ih =>
      intro depth rest hdepth _
      by_cases hne : members = []
      · subst hne
        rfl
      · rw [write, List.length_append, List.length_cons] at hdepth
        obtain ⟨depth, rfl⟩ : ∃ less, depth = less + 2 := ⟨depth - 2, by omega⟩
        have hroom : 2 * (writeMembers members).length ≤ depth := by omega
        have hread := readMembers?_write ih hne hroom rest
        obtain ⟨cs, hmembers⟩ := exists_writeMembers hne
        rw [hmembers, List.cons_append] at hread
        have htext : (object members).write ++ rest =
            '\x7b' :: '"' :: (cs ++ '\x7d' :: rest) := by
          simp [write, hmembers]
        rw [htext]
        exact readValue?_object hread

theorem ofText?_toText (h : value.IsValid) : ofText? value.toText = some value := by
  have hread := isReadable_of_isValid h (2 * value.write.length) [] (by omega) endsNumber_nil
  rw [List.append_nil] at hread
  rw [ofText?, toText, String.length_ofList, String.toList_ofList, hread]
  rfl

end Ledger.Json
