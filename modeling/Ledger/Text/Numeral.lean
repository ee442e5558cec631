namespace Ledger.Numeral

/-- The value of an ASCII decimal digit. -/
def digit? (c : Char) : Option Nat :=
  if '0' ≤ c ∧ c ≤ '9' then some (c.toNat - '0'.toNat) else none

/-- The value of a hexadecimal digit, in either case of the letters. -/
def hexDigit? (c : Char) : Option Nat :=
  if '0' ≤ c ∧ c ≤ '9' then some (c.toNat - '0'.toNat)
  else if 'a' ≤ c ∧ c ≤ 'f' then some (c.toNat - 'a'.toNat + 10)
  else if 'A' ≤ c ∧ c ≤ 'F' then some (c.toNat - 'A'.toNat + 10)
  else none

/-- The decimal digits of a number, without leading zeros. -/
def write (n : Nat) : List Char :=
  if n < 10 then [Nat.digitChar n]
  else write (n / 10) ++ [Nat.digitChar (n % 10)]
termination_by n
decreasing_by omega

/-- Reads digits on after the ones worth `value`. -/
def readFrom (value : Nat) : List Char → Option Nat
  | [] => some value
  | c :: rest => (digit? c).bind fun d => readFrom (10 * value + d) rest

/-- The number a non-empty run of decimal digits stands for. -/
def read? : List Char → Option Nat
  | [] => none
  | cs => readFrom 0 cs

/-- As `read?`, with one plus sign allowed in front. -/
def readSigned? : List Char → Option Nat
  | '+' :: rest => read? rest
  | cs => read? cs

@[simp] theorem digit?_digitChar {d : Nat} (h : d < 10) : digit? (Nat.digitChar d) = some d := by
  match d, h with
  | 0, _ | 1, _ | 2, _ | 3, _ | 4, _ | 5, _ | 6, _ | 7, _ | 8, _ | 9, _ => rfl

theorem readFrom_append (value : Nat) (cs ds : List Char) :
    readFrom value (cs ++ ds) = (readFrom value cs).bind fun v => readFrom v ds := by
  induction cs generalizing value with
  | nil => rfl
  | cons c cs ih =>
      simp only [List.cons_append, readFrom, Option.bind_assoc]
      congr 1
      funext d
      exact ih _

theorem write_ne_nil (n : Nat) : write n ≠ [] := by
  unfold write
  split <;> simp

theorem readFrom_write (n : Nat) : readFrom 0 (write n) = some n := by
  induction n using Nat.strongRecOn with
  | ind n ih =>
      unfold write
      split
      · next h => simp [readFrom, digit?_digitChar h]
      · next h =>
          have hmod : n % 10 < 10 := Nat.mod_lt _ (by omega)
          rw [readFrom_append, ih (n / 10) (by omega)]
          simp only [Option.bind_some, readFrom, digit?_digitChar hmod]
          congr 1
          omega

@[simp] theorem read?_write (n : Nat) : read? (write n) = some n := by
  cases h : write n with
  | nil => exact absurd h (write_ne_nil n)
  | cons c cs => rw [read?, ← h, readFrom_write]; simp

end Ledger.Numeral
