import Ledger.AccountTable
import Ledger.Proofs.Csv.Spelling
import Ledger.Proofs.Decimal.Printing
import Ledger.Proofs.Operation.Texts

/-!
The table of accounts. Its text is the same in whatever order the accounts are given, and it is read
back as one record for each account, whatever the texts are that the accounts hold.
-/

namespace Ledger

namespace Csv

variable {bytes more : List UInt8} {records : List Record}

/-- Whether some bytes spell a text. -/
def IsText (bytes : List UInt8) : Prop :=
  ∃ cs, bytes = Utf8.encode cs

theorem IsText.append (h : IsText bytes) (hmore : IsText more) : IsText (bytes ++ more) := by
  obtain ⟨cs, rfl⟩ := h
  obtain ⟨ds, rfl⟩ := hmore
  exact ⟨cs ++ ds, (Utf8.encode_append cs ds).symm⟩

theorem quote_not_mem_utf8EncodeChar {c : Char} (h : c ≠ '"') :
    quote ∉ String.utf8EncodeChar c := by
  intro hmem
  rcases Nat.lt_or_ge 0x7F c.val.toNat with hlong | hshort
  · exact absurd (le_of_mem_utf8EncodeChar hmem hlong) (by decide)
  · have hvalue := toNat_of_mem_utf8EncodeChar hmem hshort
    exact h (Char.ext (UInt32.toNat_inj.mp hvalue.symm))

theorem doubleQuotes_of_not_mem (h : quote ∉ bytes) : doubleQuotes bytes = bytes := by
  induction bytes with
  | nil => rfl
  | cons b bytes ih =>
      obtain ⟨hb, hbytes⟩ := not_or.mp (List.mem_cons.not.mp h)
      rw [doubleQuotes, List.flatMap_cons, if_neg (Ne.symm hb), ← doubleQuotes, ih hbytes]
      rfl

theorem isText_doubleQuotes (h : IsText bytes) : IsText (doubleQuotes bytes) := by
  obtain ⟨cs, rfl⟩ := h
  induction cs with
  | nil => exact ⟨[], rfl⟩
  | cons c cs ih =>
      rw [Utf8.encode_cons, doubleQuotes, List.flatMap_append]
      refine IsText.append ?_ ih
      by_cases hc : c = '"'
      · subst hc
        exact ⟨['"', '"'], rfl⟩
      · refine ⟨[c], ?_⟩
        rw [← doubleQuotes, doubleQuotes_of_not_mem (quote_not_mem_utf8EncodeChar hc)]
        simp

theorem isText_writeField (h : IsText bytes) : IsText (writeField bytes) := by
  unfold writeField
  split
  · exact (IsText.append ⟨['"'], rfl⟩ (isText_doubleQuotes h)).append ⟨['"'], rfl⟩
  · exact h

theorem isText_writeFields {record : Record} (h : ∀ field ∈ record, IsText field) :
    IsText ([comma].intercalate (record.map writeField)) := by
  induction record with
  | nil => exact ⟨[], rfl⟩
  | cons field record ih =>
      obtain ⟨hfield, hrest⟩ := List.forall_mem_cons.mp h
      cases record with
      | nil => simpa [List.intercalate] using isText_writeField hfield
      | cons second record =>
          have hcomma : IsText [comma] := ⟨[','], rfl⟩
          simpa [List.intercalate] using
            (isText_writeField hfield).append (hcomma.append (ih hrest))

theorem isText_write (h : ∀ record ∈ records, ∀ field ∈ record, IsText field) :
    IsText (write records) := by
  induction records with
  | nil => exact ⟨[], rfl⟩
  | cons record records ih =>
      obtain ⟨hrecord, hrest⟩ := List.forall_mem_cons.mp h
      rw [write, List.flatMap_cons]
      refine IsText.append ?_ (ih hrest)
      rw [writeRecord.eq_def]
      split
      · exact ⟨['"', '"', '\n'], rfl⟩
      · exact (isText_writeFields hrecord).append ⟨['\n'], rfl⟩

end Csv

namespace AccountTable

variable {accounts : List Account} {a : Account}

/-- Whether the texts under the header of a table say what an account is: each text is read by
itself, and the balance has the places that it is stored with. -/
def Shows (texts : List String) (a : Account) : Prop :=
  ∃ id user balance status, texts = [id, user, a.product, a.currency, balance, status] ∧
    Numeral.read? id.toList = some a.id ∧ Numeral.read? user.toList = some a.user ∧
    (∃ d, Decimal.ofString? balance = some d ∧
      d.signed = a.balance.signed ∧ d.scale = a.balance.scale) ∧
    AccountStatus.ofText? status = some a.status

theorem shows_fields (a : Account) : Shows (fields a) a := by
  refine ⟨_, _, _, _, rfl, ?_, ?_, a.balance.exists_ofString?_toText, a.status.ofText?_toText⟩
  · rw [String.toList_ofList, Numeral.read?_write]
  · rw [String.toList_ofList, Numeral.read?_write]

theorem sorted_perm (accounts : List Account) : (sorted accounts).Perm accounts :=
  List.mergeSort_perm _ _

theorem sorted_pairwise (hnodup : (accounts.map Account.id).Nodup) :
    (sorted accounts).Pairwise fun a b => a.id < b.id := by
  have hle : (sorted accounts).Pairwise fun a b => decide (a.id ≤ b.id) = true := by
    apply List.pairwise_mergeSort
    · intro a b c hab hbc
      exact decide_eq_true (Nat.le_trans (of_decide_eq_true hab) (of_decide_eq_true hbc))
    · intro a b
      simpa using Nat.le_total a.id b.id
  have hne : (sorted accounts).Pairwise fun a b => a.id ≠ b.id :=
    List.pairwise_map.mp (((sorted_perm accounts).map _).nodup_iff.mpr hnodup)
  exact (hle.and hne).imp fun h => Nat.lt_of_le_of_ne (of_decide_eq_true h.1) h.2

theorem sorted_eq_of_perm {accounts' : List Account} (hnodup : (accounts.map Account.id).Nodup)
    (h : accounts'.Perm accounts) : sorted accounts' = sorted accounts := by
  have hnodup' : (accounts'.map Account.id).Nodup := (h.map _).nodup_iff.mpr hnodup
  apply List.Perm.eq_of_pairwise _ (sorted_pairwise hnodup') (sorted_pairwise hnodup)
  · exact (sorted_perm accounts').trans (h.trans (sorted_perm accounts).symm)
  · exact fun a b _ _ hlt hgt => absurd hlt (Nat.lt_asymm hgt)

theorem write_eq_records (accounts : List Account) :
    write accounts = Csv.write ((header :: (sorted accounts).map fields).map record) := by
  rw [write, List.map_cons, List.map_map]
  rfl

theorem dropMark_write (accounts : List Account) :
    Csv.dropMark (write accounts) = write accounts := by
  have hheader :
      Csv.writeRecord (record header) = 0x69 :: (Csv.writeRecord (record header)).tail := by
    decide +kernel
  rw [write, Csv.write, List.flatMap_cons, hheader]
  rfl

theorem read_write (accounts : List Account) :
    Csv.read (write accounts) = (header :: (sorted accounts).map fields).map record := by
  apply Csv.Spells.read_eq
  rw [dropMark_write, write_eq_records]
  apply Csv.spells_write
  intro row hrow
  obtain ⟨texts, htexts, rfl⟩ := List.mem_map.mp hrow
  rcases List.mem_cons.mp htexts with rfl | htexts
  · simp [record, header]
  · obtain ⟨a, -, rfl⟩ := List.mem_map.mp htexts
    simp [record, fields]

theorem readTexts_record (texts : List String) :
    readTexts 0 (record texts) = .ok (texts.map trim) := by
  have hread := readTexts_encode 0 (texts.map String.toList)
  rw [List.map_map, List.map_map] at hread
  exact hread

theorem trim_fields (hproduct : trim a.product = a.product)
    (hcurrency : trim a.currency = a.currency) :
    (fields a).map trim = fields a := by
  have hstatus : trim a.status.toText = a.status.toText := by
    cases a.status <;> decide
  have hbalance : trim a.balance.toText = a.balance.toText := by
    rw [trim, a.balance.trimBlanks_toText, String.ofList_toList]
  have hnumber (n : Nat) :
      trim (String.ofList (Numeral.write n)) = String.ofList (Numeral.write n) := by
    rw [trim, String.toList_ofList, Numeral.trimBlanks_write]
  simp [fields, hproduct, hcurrency, hstatus, hbalance, hnumber]

theorem putOut_of_room {room : Nat} (h : (write accounts).length ≤ room) (reason : String) :
    putOut accounts room reason = .ok () :=
  if_pos h

/-- The table of accounts with different ids does not depend on their order, and it is read as the
header and one record for each account, ascending by id, with the texts that say what the account
is. Blanks are trimmed without a loss if there are none around the texts of the accounts. -/
theorem write_canonical_and_lossless (hnodup : (accounts.map Account.id).Nodup) :
    (∀ accounts' : List Account, accounts'.Perm accounts → write accounts' = write accounts) ∧
    (∀ room reason, (write accounts).length ≤ room → putOut accounts room reason = .ok ()) ∧
    Csv.IsText (write accounts) ∧
    ∃ rows : List Account, rows.Perm accounts ∧ (rows.Pairwise fun a b => a.id < b.id) ∧
      Csv.read (write accounts) = (header :: rows.map fields).map record ∧
      (∀ a ∈ rows, Shows (fields a) a) ∧
      ((∀ a ∈ accounts, trim a.product = a.product ∧ trim a.currency = a.currency) →
        (Csv.read (write accounts)).map (readTexts 0) = (header :: rows.map fields).map .ok) := by
  refine ⟨?_, ?_, ?_, sorted accounts, sorted_perm accounts, sorted_pairwise hnodup,
    read_write accounts, fun a _ => shows_fields a, ?_⟩
  · intro accounts' h
    rw [write, write, sorted_eq_of_perm hnodup h]
  · exact fun room reason h => putOut_of_room h reason
  · rw [write_eq_records]
    apply Csv.isText_write
    intro row hrow field hfield
    obtain ⟨texts, -, rfl⟩ := List.mem_map.mp hrow
    obtain ⟨s, -, rfl⟩ := List.mem_map.mp hfield
    exact ⟨s.toList, rfl⟩
  · intro htrim
    rw [read_write, List.map_map]
    apply List.map_congr_left
    intro texts htexts
    rw [Function.comp_apply, readTexts_record]
    rcases List.mem_cons.mp htexts with rfl | htexts
    · decide
    · obtain ⟨a, ha, rfl⟩ := List.mem_map.mp htexts
      obtain ⟨hproduct, hcurrency⟩ := htrim a ((sorted_perm accounts).mem_iff.mp ha)
      rw [trim_fields hproduct hcurrency]

/-- Two accounts given in the wrong order, whose texts hold all that has a meaning of its own in a
table, or nothing, or a blank. -/
theorem write_canonical_and_lossless_quoted :
    let owed : Decimal := ⟨true, 90701, 3, by decide, by decide⟩
    let joint : Account := ⟨7, 1, "joint, \"A\"\r\n→", "€", owed, .active, 4, .epoch, .epoch⟩
    let bare : Account := ⟨3, 2, "\r", "", 0, .closed, 0, .epoch, .epoch⟩
    ([joint, bare].map Account.id).Nodup ∧
      write [bare, joint] = write [joint, bare] ∧
      Csv.read (write [joint, bare]) =
        [header, ["3", "2", "\r", "", "0", "closed"],
          ["7", "1", "joint, \"A\"\r\n→", "€", "-90.701", "active"]].map record ∧
      (Csv.read (write [joint])).map (readTexts 0) = [header, fields joint].map .ok := by
  intro owed joint bare
  have hnodup : ([joint, bare].map Account.id).Nodup := by decide
  obtain ⟨horder, -, -, rows, hperm, hascending, hread, -, -⟩ :=
    write_canonical_and_lossless hnodup
  have hone : ([joint].map Account.id).Nodup := by decide
  obtain ⟨-, -, -, row, hrow, -, -, -, htrimmed⟩ := write_canonical_and_lossless hone
  obtain rfl : row = [joint] := List.perm_singleton.mp hrow
  have hswap : [bare, joint].Perm [joint, bare] := List.Perm.swap joint bare []
  obtain rfl : rows = [bare, joint] :=
    (hperm.trans hswap.symm).eq_of_pairwise (fun _ _ _ _ h h' => absurd h (Nat.lt_asymm h'))
      hascending (by simp [joint, bare])
  exact ⟨hnodup, horder [bare, joint] hswap, hread.trans (by decide +kernel),
    htrimmed (by decide)⟩

end AccountTable

end Ledger
