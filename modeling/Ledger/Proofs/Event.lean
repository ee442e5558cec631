import Ledger.Event
import Ledger.Proofs.Record
import Ledger.Text.Utf8

/-!
What the event bus carries for a row says all that the event does: the members of a payload are read
back one by one, and so no two events of a topic have the same payload.
-/

namespace Ledger

theorem Utf8.encode_injective : Function.Injective Utf8.encode := by
  intro cs ds h
  have hdecode := congrArg Utf8.decode h
  rw [Utf8.decode_encode, Utf8.decode_encode] at hdecode
  exact Except.ok.inj hdecode

namespace Event

variable {e e' : Event} {text text' : String}

/-- What is kept of an event in its payload. -/
def Writable : Event → Prop
  | accountCreated account user .. => account < 2 ^ 64 ∧ user < 2 ^ 64
  | transactionCompleted transaction user source destination amount _ createdAt =>
      transaction < 2 ^ 64 ∧ user < 2 ^ 64 ∧ (∀ account ∈ source, account < 2 ^ 64) ∧
        destination < 2 ^ 64 ∧ ¬amount.IsNegativeZero ∧ createdAt.HasShortYear

/-- The id of the account or transaction that an event is about. -/
def row : Event → Nat
  | accountCreated account .. => account
  | transactionCompleted transaction .. => transaction

/-- Whether a text is an object of the members of an event, in their order, and each of them, read by
itself, has the value that the event has. -/
def Tells (text : String) : Event → Prop
  | accountCreated account user product currency status =>
      ∃ accountId userId type currencyCode state : Json,
        Json.ofText? text = some (.object
          [(some "account_id", accountId), (some "user_id", userId), (some "type", type),
            (some "currency", currencyCode), (some "status", state)]) ∧
        accountId.natural? = some account ∧ userId.natural? = some user ∧
        type.string? = some product ∧ currencyCode.string? = some currency ∧
        state.string?.bind AccountStatus.ofText? = some status
  | transactionCompleted transaction user source destination amount kind createdAt =>
      ∃ transactionId userId fromId toId sum type time : Json,
        Json.ofText? text = some (.object
          [(some "transaction_id", transactionId), (some "user_id", userId),
            (some "from_account_id", fromId), (some "to_account_id", toId), (some "amount", sum),
            (some "type", type), (some "created_at", time)]) ∧
        transactionId.natural? = some transaction ∧ userId.natural? = some user ∧
        fromId.optionNatural? = some source ∧ toId.natural? = some destination ∧
        sum.string?.bind Decimal.ofString? = some amount ∧
        type.string?.bind TransactionKind.ofText? = some kind ∧
        time.string?.bind Timestamp.ofString? = some createdAt

theorem isValid_body (e : Event) : e.body.IsValid := by
  cases e <;> apply Json.IsValid.object <;>
    simp [Json.isValid_ofNat, Json.isValid_ofOptionNat, Json.IsValid.string, Decimal.toJson,
      Timestamp.toJson]

theorem tells_payload (h : e.Writable) : Tells e.payload e := by
  have htext : Json.ofText? e.payload = some e.body := Json.ofText?_toText e.isValid_body
  cases e with
  | accountCreated account user product currency status =>
      obtain ⟨haccount, huser⟩ := h
      exact ⟨_, _, _, _, _, htext, Json.natural?_ofNat haccount, Json.natural?_ofNat huser, rfl, rfl,
        status.ofText?_toText⟩
  | transactionCompleted transaction user source destination amount kind createdAt =>
      obtain ⟨htransaction, huser, hsource, hdestination, hamount, hcreated⟩ := h
      have hsum : amount.toJson.string?.bind Decimal.ofString? = some amount :=
        Option.bind_eq_some_iff.mpr ⟨amount.toText, rfl, Decimal.ofString?_toText hamount⟩
      exact ⟨_, _, _, _, _, _, _, htext, Json.natural?_ofNat htransaction,
        Json.natural?_ofNat huser, Json.optionNatural?_ofOptionNat hsource,
        Json.natural?_ofNat hdestination, hsum, kind.ofText?_toText,
        Timestamp.ofJson?_toJson hcreated⟩

/-- A text tells of one event only. -/
theorem Tells.unique (h : Tells text e) (h' : Tells text e') : e = e' := by
  cases e <;> cases e'
  · obtain ⟨_, _, _, _, _, htext, haccount, huser, htype, hcurrency, hstatus⟩ := h
    obtain ⟨_, _, _, _, _, htext', haccount', huser', htype', hcurrency', hstatus'⟩ := h'
    simp only [htext, Option.some.injEq, Json.object.injEq, List.cons.injEq, Prod.mk.injEq, true_and,
      and_true] at htext'
    obtain ⟨rfl, rfl, rfl, rfl, rfl⟩ := htext'
    rw [accountCreated.injEq]
    exact ⟨Option.mem_unique haccount haccount', Option.mem_unique huser huser',
      Option.mem_unique htype htype', Option.mem_unique hcurrency hcurrency',
      Option.mem_unique hstatus hstatus'⟩
  · obtain ⟨_, _, _, _, _, htext, -⟩ := h
    obtain ⟨_, _, _, _, _, _, _, htext', -⟩ := h'
    simp [htext] at htext'
  · obtain ⟨_, _, _, _, _, _, _, htext, -⟩ := h
    obtain ⟨_, _, _, _, _, htext', -⟩ := h'
    simp [htext] at htext'
  · obtain ⟨_, _, _, _, _, _, _, htext, htransaction, huser, hsource, hdestination, hamount, hkind,
      hcreated⟩ := h
    obtain ⟨_, _, _, _, _, _, _, htext', htransaction', huser', hsource', hdestination', hamount',
      hkind', hcreated'⟩ := h'
    simp only [htext, Option.some.injEq, Json.object.injEq, List.cons.injEq, Prod.mk.injEq, true_and,
      and_true] at htext'
    obtain ⟨rfl, rfl, rfl, rfl, rfl, rfl, rfl⟩ := htext'
    rw [transactionCompleted.injEq]
    exact ⟨Option.mem_unique htransaction htransaction', Option.mem_unique huser huser',
      Option.mem_unique hsource hsource', Option.mem_unique hdestination hdestination',
      Option.mem_unique hamount hamount', Option.mem_unique hkind hkind',
      Option.mem_unique hcreated hcreated'⟩

theorem key_eq (e : Event) : e.key = String.ofList (Numeral.write e.row) := by
  cases e <;> rfl

theorem key_eq_iff : e.key = e'.key ↔ e.row = e'.row := by
  rw [key_eq, key_eq, String.ofList_inj]
  exact Numeral.write_injective.eq_iff

/-- The payload of the event of an account or a transaction is an object of exactly the members that
it is to have, and they are read back as the values of the row. So the bytes of a payload belong to
one event only, and those of a key, within a topic, to the events of one row. -/
theorem payload_faithful :
    (∀ a : Account, (ofAccount a).Writable → (ofAccount a).Tells (ofAccount a).payload) ∧
    (∀ t : Transaction, (ofTransaction t).Writable →
      (ofTransaction t).Tells (ofTransaction t).payload) ∧
    (∀ e e' : Event, e.Writable → e'.Writable →
      Utf8.encode e.payload.toList = Utf8.encode e'.payload.toList → e = e') ∧
    (∀ e e' : Event, Utf8.encode e.key.toList = Utf8.encode e'.key.toList ↔ e.row = e'.row) := by
  refine ⟨fun a => tells_payload, fun t => tells_payload, ?_, ?_⟩
  · intro e e' he he' h
    have hpayload := String.toList_injective (Utf8.encode_injective h)
    have htells := tells_payload he
    rw [hpayload] at htells
    exact htells.unique (tells_payload he')
  · intro e e'
    rw [Utf8.encode_injective.eq_iff, String.toList_inj]
    exact key_eq_iff

/-- An account of a type that has to be escaped, and two deposits that differ in the scale of the
amount only. -/
theorem payload_faithful_escaped :
    let a : Account := ⟨Nat.pow 2 64 - 1, 3, "\"\\\x1f→", "USD", 0, .closed, 2, .epoch, .epoch⟩
    let leap : Timestamp := ⟨9999, 12, 31, 23, 59, 60, 1000⟩
    let t : Transaction := ⟨12, 3, none, 1, .cents 6100, "", .deposit, leap⟩
    let rounded : Transaction := { t with amount := ⟨false, 61, 0, by decide, by decide⟩ }
    (ofAccount a).Tells (ofAccount a).payload ∧ (ofTransaction t).Tells (ofTransaction t).payload ∧
      Utf8.encode (ofTransaction t).payload.toList ≠
        Utf8.encode (ofTransaction rounded).payload.toList ∧
      Utf8.encode (ofTransaction t).key.toList = Utf8.encode (ofTransaction rounded).key.toList := by
  intro a leap t rounded
  obtain ⟨haccount, htransaction, hpayload, hkey⟩ := payload_faithful
  have ha : (ofAccount a).Writable := ⟨by decide, by decide⟩
  have ht : (ofTransaction t).Writable :=
    ⟨by decide, by decide, by simp [t], by decide, by decide, by decide⟩
  have hrounded : (ofTransaction rounded).Writable :=
    ⟨by decide, by decide, by simp [rounded, t], by decide, by decide, by decide⟩
  refine ⟨haccount a ha, htransaction t ht, ?_, (hkey _ _).mpr rfl⟩
  intro h
  have hevent := hpayload _ _ ht hrounded h
  exact absurd hevent (by decide)

end Event

end Ledger
