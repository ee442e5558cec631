import Ledger.Proofs.Decimal.Printing
import Ledger.Proofs.Json.Members
import Ledger.Proofs.Timestamp.Printing
import Ledger.Record

/-!
Accounts and transactions are read back as they are written, whatever texts they hold, and from any
text that says the same of them: in another order, or with more members that nobody asks for.
-/

namespace Ledger

theorem Decimal.ofJson?_toJson {d : Decimal} (h : ¬d.IsNegativeZero) :
    ofJson? d.toJson = some d := by
  rw [toJson, ofJson?, ofString?_toText h]

theorem Timestamp.ofJson?_toJson {t : Timestamp} (h : t.HasShortYear) :
    ofJson? t.toJson = some t := by
  rw [toJson, ofJson?]
  exact Option.bind_eq_some_iff.mpr ⟨t.toText, rfl, ofString?_toText h⟩

namespace Json

variable {α : Type} {names : List String} {members members' : List Member}
  {ofMembers? : List Member → Option α}

/-- Whether a text is read by the names of its members: what is read of an object is also read of
every object that extends it. -/
def ReadsByName (names : List String) (decode? : String → Option α) : Prop :=
  ∀ text text' members members', ofText? text = some (object members) →
    ofText? text' = some (object members') → Extends names members members' →
      decode? text' = decode? text

theorem readsByName_of_members
    (h : ∀ members members', Extends names members members' →
      ofMembers? members' = ofMembers? members) :
    ReadsByName names fun text =>
      (ofText? text).bind fun value => (value.fields? names).bind ofMembers? := by
  intro text text' members members' htext htext' hextends
  simp only [htext, htext', Option.bind_some, fields?, hextends.all_isSome]
  split
  · exact h members members' hextends
  · rfl

theorem ReadsByName.decode?_toText {decode? : String → Option α} {text : String} {value : α}
    (h : ReadsByName names decode?) (hvalue : decode? text = some value)
    (htext : ofText? text = some (object members)) (hextends : Extends names members members')
    (hvalid : ∀ member ∈ members', member.2.IsValid) :
    decode? (object members').toText = some value := by
  have htext' := ofText?_toText (.object hvalid)
  rw [h text _ members members' htext htext' hextends, hvalue]

end Json

namespace Account

variable {a : Account} {members members' : List Json.Member}

/-- What is kept of an account when it is written and read again. -/
structure Writable (a : Account) : Prop where
  id_lt : a.id < 2 ^ 64
  user_lt : a.user < 2 ^ 64
  version_lt : a.version < 2 ^ 64
  balance : ¬a.balance.IsNegativeZero
  createdAt : a.createdAt.HasShortYear
  updatedAt : a.updatedAt.HasShortYear

theorem ofJson?_toJson (h : a.Writable) : ofJson? a.toJson = some a := by
  have hid := Json.natural?_ofNat h.id_lt
  have huser := Json.natural?_ofNat h.user_lt
  have hversion := Json.natural?_ofNat h.version_lt
  have hbalance := Decimal.ofJson?_toJson h.balance
  have hcreated := Timestamp.ofJson?_toJson h.createdAt
  have hupdated := Timestamp.ofJson?_toJson h.updatedAt
  simp [ofJson?, Json.fields?, ofMembers?, toJson, Json.required?, Json.string?, Json.choice?, hid,
    huser, hversion, hbalance, hcreated, hupdated]

theorem isValid_toJson (a : Account) : a.toJson.IsValid := by
  apply Json.IsValid.object
  simp [Json.isValid_ofNat, Json.IsValid.string, Decimal.toJson, Timestamp.toJson]

theorem decode?_encode (h : a.Writable) : decode? a.encode = some a := by
  rw [decode?, encode, Json.ofText?_toText a.isValid_toJson, Option.bind_some, ofJson?_toJson h]

theorem ofMembers?_of_extends (h : Json.Extends memberNames members members') :
    ofMembers? members' = ofMembers? members := by
  have hrequired (name : String) (hname : name ∈ memberNames) := h.required?_eq hname
  simp only [memberNames, List.forall_mem_cons] at hrequired
  simp only [ofMembers?, hrequired]

theorem readsByName : Json.ReadsByName memberNames decode? :=
  Json.readsByName_of_members fun _ _ => ofMembers?_of_extends

end Account

namespace Transaction

variable {t : Transaction} {members members' : List Json.Member}

/-- What is kept of a transaction when it is written and read again. -/
structure Writable (t : Transaction) : Prop where
  id_lt : t.id < 2 ^ 64
  user_lt : t.user < 2 ^ 64
  source_lt : ∀ source ∈ t.source, source < 2 ^ 64
  destination_lt : t.destination < 2 ^ 64
  amount : ¬t.amount.IsNegativeZero
  createdAt : t.createdAt.HasShortYear

theorem ofJson?_toJson (h : t.Writable) : ofJson? t.toJson = some t := by
  have hid := Json.natural?_ofNat h.id_lt
  have huser := Json.natural?_ofNat h.user_lt
  have hsource := Json.optionNatural?_ofOptionNat h.source_lt
  have hdestination := Json.natural?_ofNat h.destination_lt
  have hamount := Decimal.ofJson?_toJson h.amount
  have hcreated := Timestamp.ofJson?_toJson h.createdAt
  simp [ofJson?, Json.fields?, ofMembers?, toJson, Json.required?, Json.optional?, Json.string?,
    Json.choice?, hid, huser, hsource, hdestination, hamount, hcreated]

theorem isValid_toJson (t : Transaction) : t.toJson.IsValid := by
  apply Json.IsValid.object
  simp [Json.isValid_ofNat, Json.isValid_ofOptionNat, Json.IsValid.string, Decimal.toJson,
    Timestamp.toJson]

theorem decode?_encode (h : t.Writable) : decode? t.encode = some t := by
  rw [decode?, encode, Json.ofText?_toText t.isValid_toJson, Option.bind_some, ofJson?_toJson h]

theorem ofMembers?_of_extends (h : Json.Extends memberNames members members') :
    ofMembers? members' = ofMembers? members := by
  have hrequired (name : String) (hname : name ∈ memberNames) := h.required?_eq hname
  have hsource := h.optional?_eq (show "from_account_id" ∈ memberNames by simp [memberNames])
  simp only [memberNames, List.forall_mem_cons] at hrequired
  simp only [ofMembers?, hrequired, hsource]

theorem readsByName : Json.ReadsByName memberNames decode? :=
  Json.readsByName_of_members fun _ _ => ofMembers?_of_extends

end Transaction

/-- An account or transaction is read back as it is written, and also if its members are written
in another order or together with others. What is read of any text, an account or none, depends
neither on the order of the members nor on members of other names. -/
theorem records_round_trip :
    (∀ a : Account, a.Writable → Account.decode? a.encode = some a ∧
      ∀ members, Json.Extends Account.memberNames a.toJson.members members →
        (∀ member ∈ members, member.2.IsValid) →
          Account.decode? (Json.object members).toText = some a) ∧
    (∀ t : Transaction, t.Writable → Transaction.decode? t.encode = some t ∧
      ∀ members, Json.Extends Transaction.memberNames t.toJson.members members →
        (∀ member ∈ members, member.2.IsValid) →
          Transaction.decode? (Json.object members).toText = some t) ∧
    Json.ReadsByName Account.memberNames Account.decode? ∧
    Json.ReadsByName Transaction.memberNames Transaction.decode? := by
  refine ⟨?_, ?_, Account.readsByName, Transaction.readsByName⟩
  · intro a h
    have hread := Account.decode?_encode h
    have htext := Json.ofText?_toText a.isValid_toJson
    exact ⟨hread, fun members => Account.readsByName.decode?_toText hread htext⟩
  · intro t h
    have hread := Transaction.decode?_encode h
    have htext := Json.ofText?_toText t.isValid_toJson
    exact ⟨hread, fun members => Transaction.readsByName.decode?_toText hread htext⟩

/-- The largest numbers, the last leap second, and texts of characters that are escaped or have four
bytes; a deposit without a source. The account is also read backwards, with a member of values that
it does not know. -/
theorem records_round_trip_extremes :
    let leap : Timestamp := ⟨2016, 12, 31, 23, 59, 60, 999999999⟩
    let least : Decimal := ⟨true, Nat.pow 2 96 - 1, 28, by decide, by decide⟩
    let a : Account := ⟨Nat.pow 2 64 - 1, 0, "\x00\"\\\n\x7f𝄞", "", least, .closed,
      Nat.pow 2 64 - 1, { leap with year := 0 }, { leap with year := 9999, nanos := 120000 }⟩
    let t : Transaction := ⟨0, Nat.pow 2 64 - 1, none, 7, .zero 28, "\t→", .deposit, leap⟩
    let note : Json.Member :=
      (some "Id", .array [.unpaired, .object [(none, .number ['-', '1', '.', '0', 'E', '+', '3'])]])
    a.Writable ∧ t.Writable ∧ Account.decode? a.encode = some a ∧
      Transaction.decode? t.encode = some t ∧
      Account.decode? (Json.object (note :: a.toJson.members.reverse)).toText = some a := by
  intro leap least a t note
  obtain ⟨haccount, htransaction, -, -⟩ := records_round_trip
  have ha : a.Writable :=
    ⟨by decide, by decide, by decide, by decide, by decide, by decide⟩
  have ht : t.Writable :=
    ⟨by decide, by decide, by simp [t], by decide, by decide, by decide⟩
  obtain ⟨hencoded, hextended⟩ := haccount a ha
  have hknown : ∀ member ∈ a.toJson.members, member.2.IsValid := by
    cases a.isValid_toJson with
    | object h => exact h
  have hobject : (Json.object [(none, .number ['-', '1', '.', '0', 'E', '+', '3'])]).IsValid :=
    .object fun member h => List.mem_singleton.mp h ▸ .number rfl
  have hnote : note.2.IsValid := .array (by simp [Json.IsValid.unpaired, hobject])
  refine ⟨ha, ht, hencoded, (htransaction t ht).1, hextended _ ⟨[note], ?_, ?_⟩ ?_⟩
  · exact ((List.reverse_perm _).cons note).trans (List.perm_append_singleton note _).symm
  · simp [note, Account.memberNames]
  · rintro member (_ | ⟨_, h⟩)
    · exact hnote
    · exact hknown member (List.mem_reverse.mp h)

end Ledger
