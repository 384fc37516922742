import Highlighting.Decimal.Shortest

/-!
# Nearest doubles

The double that is nearest to a decimal. Decimals far beyond the range of doubles are told apart by
their length, so that no power of ten is computed for them.

## Main definitions

* `Decimal.nearest`: the double nearest to a decimal
* `Decimal.positional`: a decimal written without an exponent
-/

namespace Highlighting

namespace Decimal

/-- The power of ten above the leading digit. -/
def magnitude (d : Decimal) : Int :=
  (toString d.digits).length + d.exponent

/-- The double that is nearest to a decimal. From `10 ^ 310` on it is infinite, and up to
`10 ^ -330` it is zero. -/
def nearest (d : Decimal) : Float :=
  if d.digits = 0 || d.magnitude ≤ -330 then 0
  else if 311 ≤ d.magnitude then Float.ofScientific 1 false 400
  else Float.ofScientific d.digits (d.exponent < 0) d.exponent.natAbs

/-- A decimal without an exponent. A whole number has no point. -/
def positional (d : Decimal) : String :=
  let digits := (toString d.digits).toList
  let point : Int := digits.length + d.exponent
  if 0 ≤ d.exponent then
    String.ofList (digits ++ List.replicate d.exponent.toNat '0')
  else if 0 < point then
    String.ofList (digits.take point.toNat ++ '.' :: digits.drop point.toNat)
  else
    String.ofList ('0' :: '.' :: List.replicate (-point).toNat '0' ++ digits)

end Decimal

end Highlighting
