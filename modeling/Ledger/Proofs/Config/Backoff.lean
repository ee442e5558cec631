import Ledger.Proofs.Config.Validated
import Mathlib.Algebra.Group.Nat.Defs

namespace Ledger.RelayConfig

variable {c : RelayConfig} {attempt later : Nat}

/-- What the first backoff is multiplied with after the given attempt: it doubles as long as it has
32 bits at most, and then stays the largest such number. -/
def factor (attempt : Nat) : Nat :=
  min (2 ^ (attempt - 1)) (2 ^ 32 - 1)

theorem factor_pos (attempt : Nat) : 1 ≤ factor attempt :=
  Nat.le_min.mpr ⟨Nat.one_le_two_pow, by decide⟩

theorem factor_lt (attempt : Nat) : factor attempt < 2 ^ 32 :=
  Nat.lt_of_le_of_lt (Nat.min_le_right _ _) (by decide)

theorem factor_mono (h : attempt ≤ later) : factor attempt ≤ factor later := by
  have hpow : 2 ^ (attempt - 1) ≤ 2 ^ (later - 1) :=
    Nat.pow_le_pow_right (by decide) (Nat.sub_le_sub_right h 1)
  unfold factor
  omega

theorem factor_of_le (h : attempt ≤ 32) : factor attempt = 2 ^ (attempt - 1) := by
  have hpow : 2 ^ (attempt - 1) ≤ 2 ^ 31 := Nat.pow_le_pow_right (by decide) (by omega)
  unfold factor
  omega

theorem pow_of_lt (h : 32 < attempt) : 2 ^ 32 - 1 ≤ 2 ^ (attempt - 1) := by
  have hpow : 2 ^ 32 ≤ 2 ^ (attempt - 1) := Nat.pow_le_pow_right (by decide) (by omega)
  omega

theorem factor_of_lt (h : 32 < attempt) : factor attempt = 2 ^ 32 - 1 :=
  Nat.min_eq_right (pow_of_lt h)

theorem factor_eq (attempt : Nat) :
    min (Nat.pow 2 (min (attempt - 1) 32)) (Nat.pow 2 32 - 1) = factor attempt := by
  by_cases h : attempt ≤ 32
  · rw [Nat.min_eq_left (by omega : attempt - 1 ≤ 32)]
    rfl
  · rw [Nat.min_eq_right (by omega : 32 ≤ attempt - 1), factor_of_lt (by omega)]
    decide

/-- The exact length of a backoff: a product that is too long to be held is longer than the largest
backoff. -/
theorem nanos_backoffAfter (c : RelayConfig) (attempt : Nat) :
    (c.backoffAfter attempt).nanos =
      min (c.initialBackoff.nanos * factor attempt) c.maxBackoff.nanos := by
  unfold backoffAfter
  rw [factor_eq]
  cases hproduct : c.initialBackoff.times? (factor attempt) with
  | some product => rw [Duration.nanos_min, Duration.times?_eq_some_iff.mp hproduct]
  | none =>
      have hlong := Duration.times?_eq_none_iff.mp hproduct
      have hmax := Nat.lt_of_lt_of_le c.maxBackoff.nanos_lt hlong
      exact (Nat.min_eq_right (Nat.le_of_lt hmax)).symm

/-- How the backoff of a relay grows from attempt to attempt. -/
structure Doubles (c : RelayConfig) : Prop where
  initial_le : ∀ attempt, c.initialBackoff ≤ c.backoffAfter attempt
  le_max : ∀ attempt, c.backoffAfter attempt ≤ c.maxBackoff
  mono : ∀ attempt later, attempt ≤ later → c.backoffAfter attempt ≤ c.backoffAfter later
  /-- It doubles up to the largest one, for 32 attempts at least, and for all if 32 bits are enough
  to reach the largest. -/
  exact : ∀ attempt, 1 ≤ attempt →
    (attempt ≤ 32 ∨ c.maxBackoff.nanos ≤ c.initialBackoff.nanos * (2 ^ 32 - 1)) →
    (c.backoffAfter attempt).nanos =
      min (c.initialBackoff.nanos * 2 ^ (attempt - 1)) c.maxBackoff.nanos
  /-- A product that is too long to be held gives the largest one. -/
  overflow : ∀ attempt, factor attempt < 2 ^ 32 ∧
    (c.initialBackoff.times? (factor attempt) = none → c.backoffAfter attempt = c.maxBackoff)
  /-- If 32 bits are not enough, it stays where they end. -/
  saturated : ∀ attempt, 32 < attempt →
    c.initialBackoff.nanos * (2 ^ 32 - 1) < c.maxBackoff.nanos →
    (c.backoffAfter attempt).nanos = c.initialBackoff.nanos * (2 ^ 32 - 1)

theorem WellFormed.initial_le_backoffAfter (h : c.WellFormed) (attempt : Nat) :
    c.initialBackoff ≤ c.backoffAfter attempt := by
  show c.initialBackoff.nanos ≤ (c.backoffAfter attempt).nanos
  rw [nanos_backoffAfter]
  exact Nat.le_min.mpr ⟨Nat.le_mul_of_pos_right _ (factor_pos attempt), h.backoffs⟩

theorem backoffAfter_le_max (c : RelayConfig) (attempt : Nat) :
    c.backoffAfter attempt ≤ c.maxBackoff := by
  show (c.backoffAfter attempt).nanos ≤ c.maxBackoff.nanos
  rw [nanos_backoffAfter]
  exact Nat.min_le_right _ _

theorem backoffAfter_mono (c : RelayConfig) (h : attempt ≤ later) :
    c.backoffAfter attempt ≤ c.backoffAfter later := by
  show (c.backoffAfter attempt).nanos ≤ (c.backoffAfter later).nanos
  have hproducts := Nat.mul_le_mul_left c.initialBackoff.nanos (factor_mono h)
  rw [nanos_backoffAfter, nanos_backoffAfter]
  omega

theorem backoffAfter_of_overflow (h : c.initialBackoff.times? (factor attempt) = none) :
    c.backoffAfter attempt = c.maxBackoff := by
  unfold backoffAfter
  rw [factor_eq, h]

theorem backoffAfter_exact
    (h : attempt ≤ 32 ∨ c.maxBackoff.nanos ≤ c.initialBackoff.nanos * (2 ^ 32 - 1)) :
    (c.backoffAfter attempt).nanos =
      min (c.initialBackoff.nanos * 2 ^ (attempt - 1)) c.maxBackoff.nanos := by
  rw [nanos_backoffAfter]
  by_cases hattempt : attempt ≤ 32
  · rw [factor_of_le hattempt]
  · have hmax := h.resolve_left hattempt
    have hpow := Nat.mul_le_mul_left c.initialBackoff.nanos
      (pow_of_lt (Nat.lt_of_not_le hattempt))
    rw [factor_of_lt (by omega), Nat.min_eq_right hmax, Nat.min_eq_right (Nat.le_trans hmax hpow)]

/-- The backoff of a validated relay lies between the first and the largest one, never gets shorter,
and doubles exactly. -/
theorem validated_doubles (maxAttempts : Nat) (initialBackoff maxBackoff : Duration) :
    (validated maxAttempts initialBackoff maxBackoff).Doubles := by
  have hrelay := wellFormed_validated maxAttempts initialBackoff maxBackoff
  refine
    { initial_le := hrelay.initial_le_backoffAfter
      le_max := backoffAfter_le_max _
      mono := fun _ _ => backoffAfter_mono _
      exact := fun _ _ => backoffAfter_exact
      overflow := fun attempt => ⟨factor_lt attempt, backoffAfter_of_overflow⟩
      saturated := ?_ }
  intro attempt hattempt hmax
  rw [nanos_backoffAfter, factor_of_lt hattempt, Nat.min_eq_left (Nat.le_of_lt hmax)]

example : [1, 2, 3, 10].map standard.backoffAfter = [50, 100, 200, 2000].map .ofMillis := by decide

end Ledger.RelayConfig
