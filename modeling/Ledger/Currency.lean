import Ledger.Decimal.Basic

namespace Ledger.Currency

/-- The decimal places of a currency's minor unit; two where the code is not a special one. -/
def minorUnits (code : String) : Nat :=
  if code ∈ ["JPY", "KRW", "VND", "CLP", "ISK"] then 0
  else if code ∈ ["BHD", "KWD", "OMR", "JOD", "TND"] then 3
  else 2

theorem minorUnits_le (code : String) : minorUnits code ≤ 3 := by
  unfold minorUnits
  split
  · omega
  · split <;> omega

/-- The amount at exactly the currency's places. It is refused if it is finer than the minor unit or
too large to be held there; it is never rounded. -/
def scale? (amount : Decimal) (code : String) : Option Decimal :=
  if amount.normalize.scale ≤ minorUnits code then
    let scaled := amount.rescale (minorUnits code)
    if scaled.scale = minorUnits code then some scaled else none
  else none

/-- The balance after a credit, or `none` if it cannot be held at the balance's own places. -/
def credit? (balance amount : Decimal) : Option Decimal :=
  (balance.add? amount).filter fun sum => sum.scale = balance.scale

end Ledger.Currency
