import Ledger.Call.Account

namespace Ledger

theorem head?_dropBlanks {cs : List Char} : ∀ c ∈ (dropBlanks cs).head?, isBlank c = false := by
  intro c hc
  have hnot := List.head?_dropWhile_not isBlank cs
  rw [show cs.dropWhile isBlank = dropBlanks cs from rfl, Option.mem_def.mp hc] at hnot
  simpa using hnot

theorem head?_trimBlanks {cs : List Char} : ∀ c ∈ (trimBlanks cs).head?, isBlank c = false := by
  intro c hc
  rw [trimBlanks, List.head?_reverse] at hc
  obtain ⟨dropped, hdropped⟩ := List.dropWhile_suffix isBlank (l := (dropBlanks cs).reverse)
  have hlast : (dropBlanks cs).reverse.getLast? = some c := by
    rw [← hdropped, List.getLast?_append]
    exact congrArg (·.or dropped.getLast?) (Option.mem_def.mp hc)
  rw [List.getLast?_reverse] at hlast
  exact head?_dropBlanks c hlast

theorem getLast?_trimBlanks {cs : List Char} :
    ∀ c ∈ (trimBlanks cs).getLast?, isBlank c = false := by
  intro c hc
  rw [trimBlanks, List.getLast?_reverse] at hc
  exact head?_dropBlanks c hc

theorem trim_trim (s : String) : trim (trim s) = trim s := by
  have htrim : trimBlanks (trimBlanks s.toList) = trimBlanks s.toList :=
    trimBlanks_eq_self head?_trimBlanks getLast?_trimBlanks
  rw [trim, trim, String.toList_ofList, htrim]

theorem isUpper_toUpper {c : Char} (h : c.toUpper.isAlpha = true) : c.toUpper.isUpper = true := by
  unfold Char.toUpper at h ⊢
  split
  · rename_i hlower
    have hlow : 97 ≤ c.val.toNat := UInt32.le_iff_toNat_le.mp hlower.1
    have hhigh : c.val.toNat ≤ 122 := UInt32.le_iff_toNat_le.mp hlower.2
    have hval : (c.val + ('A'.val - 'a'.val)).toNat = c.val.toNat - 32 := by
      rw [UInt32.toNat_add, show ('A'.val - 'a'.val).toNat = 2 ^ 32 - 32 from rfl]
      omega
    have hA : 'A'.val.toNat = 65 := rfl
    have hZ : 'Z'.val.toNat = 90 := rfl
    refine decide_eq_true ⟨UInt32.le_iff_toNat_le.mpr ?_, UInt32.le_iff_toNat_le.mpr ?_⟩
    · rw [hval, hA]
      omega
    · rw [hval, hZ]
      omega
  · rename_i hlower
    rw [dif_neg hlower] at h
    rcases Bool.or_eq_true_iff.mp h with hupper | hlow
    · exact hupper
    · refine absurd ?_ hlower
      have hbounds := Bool.and_eq_true_iff.mp hlow
      exact ⟨of_decide_eq_true hbounds.1, of_decide_eq_true hbounds.2⟩

/-- What is true of every account that is to be opened. -/
structure NewAccount.Accepted (user : UserId) (new : NewAccount) : Prop where
  owner : new.user = user
  product_ne : new.product ≠ ""
  trimmed : trim new.product = new.product
  code_length : new.currency.toList.length = 3
  code_upper : ∀ c ∈ new.currency.toList, c.isUpper = true
  places : new.balance.scale = Currency.minorUnits new.currency
  empty : new.balance.mantissa = 0
  active : new.status = .active

theorem isUpper_of_mem_code {s : String} (h : (upperCase s).toList.all Char.isAlpha = true) :
    ∀ c ∈ (upperCase s).toList, c.isUpper = true := by
  intro c hc
  have halpha := List.all_eq_true.mp h c hc
  rw [upperCase, String.toList_ofList] at hc
  obtain ⟨c', -, rfl⟩ := List.mem_map.mp hc
  exact isUpper_toUpper halpha

theorem NewAccount.accepted_of_code (user : UserId) {text code : String}
    (htext : text.isEmpty = false) (htrimmed : trim text = text)
    (hcode : isCurrencyCode code = true)
    (hupper : code.toList.all Char.isAlpha = true → ∀ c ∈ code.toList, c.isUpper = true)
    (hplaces : Currency.minorUnits code ≤ 28) :
    NewAccount.Accepted user
      { user, product := text, currency := code
        balance := .zero (Currency.minorUnits code) hplaces
        status := .active } := by
  obtain ⟨hlength, halpha⟩ := Bool.and_eq_true_iff.mp hcode
  refine ⟨rfl, ?_, htrimmed, ?_, hupper halpha, rfl, rfl, rfl⟩
  · rintro rfl
    cases htext
  · simpa using hlength

theorem NewAccount.accepted_ofInput {user : UserId} {product currency : String} {new : NewAccount}
    (h : NewAccount.ofInput user product currency = .ok new) : new.Accepted user := by
  unfold NewAccount.ofInput at h
  simp only at h
  split at h
  · cases h
  · rename_i htext
    split at h
    · cases h
    · rename_i hcode
      cases h
      exact accepted_of_code user (by simpa using htext) (trim_trim product) (by simpa using hcode)
        isUpper_of_mem_code _

end Ledger
