namespace Ledger.Utf8

/-- The bytes that spell a text. -/
def encode (cs : List Char) : List UInt8 :=
  cs.flatMap String.utf8EncodeChar

/-- The character that the first bytes spell; none takes more than four. -/
def first? (bytes : List UInt8) : Option Char :=
  (bytes.take 4).toByteArray.utf8DecodeChar? 0

/-- The text that bytes spell, or else the number of bytes before the first that spell nothing. -/
def decode : List UInt8 → Except Nat (List Char)
  | [] => .ok []
  | b :: rest =>
      match first? (b :: rest) with
      | none => .error 0
      | some c =>
          match decode (rest.drop (c.utf8Size - 1)) with
          | .ok cs => .ok (c :: cs)
          | .error count => .error (c.utf8Size + count)
termination_by bytes => bytes.length
decreasing_by simp only [List.length_drop, List.length_cons]; omega

@[simp] theorem encode_nil : encode [] = [] :=
  rfl

@[simp] theorem encode_cons (c : Char) (cs : List Char) :
    encode (c :: cs) = String.utf8EncodeChar c ++ encode cs :=
  rfl

@[simp] theorem encode_append (cs ds : List Char) : encode (cs ++ ds) = encode cs ++ encode ds :=
  List.flatMap_append

theorem first?_utf8EncodeChar_append (c : Char) (rest : List UInt8) :
    first? (String.utf8EncodeChar c ++ rest) = some c := by
  rw [first?, List.take_append, List.take_of_length_le
    (by rw [String.length_utf8EncodeChar]; exact c.utf8Size_le_four), List.toByteArray_append]
  exact ByteArray.utf8DecodeChar?_utf8EncodeChar_append

theorem decode_utf8EncodeChar_append (c : Char) (rest : List UInt8) :
    decode (String.utf8EncodeChar c ++ rest) =
      match decode rest with
      | .ok cs => .ok (c :: cs)
      | .error count => .error (c.utf8Size + count) := by
  have hfirst := first?_utf8EncodeChar_append c rest
  have hlength := String.length_utf8EncodeChar c
  have hpos := c.utf8Size_pos
  cases hbytes : String.utf8EncodeChar c with
  | nil => simp [hbytes] at hlength; omega
  | cons b bytes =>
      simp only [hbytes, List.length_cons, List.cons_append] at hlength hfirst ⊢
      have hdrop : (bytes ++ rest).drop (c.utf8Size - 1) = rest := by
        rw [← hlength]; simp
      rw [decode, hfirst]
      simp only [hdrop]

@[simp] theorem decode_encode (cs : List Char) : decode (encode cs) = .ok cs := by
  induction cs with
  | nil => rw [encode_nil, decode]
  | cons c cs ih => rw [encode_cons, decode_utf8EncodeChar_append, ih]

end Ledger.Utf8
