import Ledger.Account
import Ledger.Decimal.Text
import Ledger.Simulation.Basic
import Ledger.Transaction

namespace Ledger

/-- A sequence of random numbers. -/
abbrev Draws := Nat → Nat

namespace Draws

/-- Scrambles the bits of a word. -/
def mix (word : UInt64) : UInt64 :=
  let word := (word ^^^ (word >>> 30)) * 0xBF58476D1CE4E5B9
  let word := (word ^^^ (word >>> 27)) * 0x94D049BB133111EB
  word ^^^ (word >>> 31)

/-- The numbers that a seed gives: scrambled words that lie evenly apart. -/
def ofSeed (seed : Nat) : Draws := fun index =>
  (mix (UInt64.ofNat seed + 0x9E3779B97F4A7C15 * UInt64.ofNat (index + 1))).toNat

/-- The given draw, brought below `bound`. -/
def below (draws : Draws) (index bound : Nat) : Nat :=
  draws index % bound

end Draws

namespace Simulation

/-- The largest amount in cents that is drawn: a quarter of the initial balance, but one cent where
that is less, or too much for a signed word. Nothing can be drawn at all if the quarter is too much
for a decimal number; the cent that stands for it then has no meaning. -/
def maxCents (initial : Decimal) : Nat :=
  match initial.mul? { (0 : Decimal) with mantissa := 25, mantissa_lt := by decide } with
  | some quarter =>
      if 1 ≤ quarter.truncate ∧ quarter.truncate < Int.pow 2 63 then quarter.truncate.toNat else 1
  | none => 1

theorem maxCents_pos (initial : Decimal) : 1 ≤ maxCents initial := by
  unfold maxCents
  split
  · split <;> omega
  · exact Nat.le_refl 1

theorem maxCents_lt (initial : Decimal) : maxCents initial < Nat.pow 2 63 := by
  have hbound : Int.pow 2 63 = 2 ^ 63 := rfl
  rw [Nat.pow_eq]
  unfold maxCents
  split
  · split <;> omega
  · omega

/-- The amount of a transfer: at least one cent and at most the largest amount. -/
def drawnAmount (initial : Decimal) (draws : Draws) (index : Nat) : Decimal :=
  Decimal.cents (draws.below index (maxCents initial) + 1) <| by
    have hdraw : draws.below index (maxCents initial) < maxCents initial :=
      Nat.mod_lt _ (maxCents_pos initial)
    have hmax := maxCents_lt initial
    simp only [Nat.pow_eq] at hmax ⊢
    omega

/-- A transfer between the two accounts; the source's owner asks for it. -/
def transferBetween (source destination : Account) (amount : Decimal) : TransferRequest where
  user := source.user
  source := source.id
  destination := destination.id
  amount := amount
  description := s!"simulated {source.id} -> {destination.id}"
  kind := if source.user = destination.user then .internal else .external

/-- The transfer with the given index: three draws give the source, one of the other accounts, and
the amount. -/
def plannedTransfer (sim : Simulation) (accounts : List Account) (draws : Draws) (index : Nat) :
    Option TransferRequest := do
  let source := draws.below (3 * index) accounts.length
  let other := draws.below (3 * index + 1) (accounts.length - 1)
  let destination := if source ≤ other then other + 1 else other
  return transferBetween (← accounts[source]?) (← accounts[destination]?)
    (drawnAmount sim.initialBalance draws (3 * index + 2))

/-- The transfers to be attempted; there are none between fewer than two accounts. -/
def plan (sim : Simulation) (accounts : List Account) (draws : Draws) : List TransferRequest :=
  if accounts.length < 2 then []
  else (List.range sim.transfers).filterMap (sim.plannedTransfer accounts draws)

end Simulation

end Ledger
