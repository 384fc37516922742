/-!
# Shortest decimals

The decimal with the fewest digits that reads back as a given double; of several with as few
digits the one nearest to it, and of two equally near ones the one with the even last digit. The
digits are found by trying grids of one digit, two digits and so on, in exact arithmetic.

## Main definitions

* `Decimal`: digits and a power of ten
* `Decimal.Binary`: a finite double, exactly
* `Decimal.Binary.readsBack`: whether a decimal is read as a double
* `Decimal.Binary.shortest`: the shortest decimal that is
-/

namespace Highlighting

/-- The number `digits * 10 ^ exponent`. -/
structure Decimal where
  /-- The digits, as a number. -/
  digits : Nat
  /-- The power of ten of the last digit. -/
  exponent : Int
  deriving DecidableEq, Repr, Inhabited

namespace Decimal

/-- The magnitude `mantissa * 2 ^ exponent` of a finite double. -/
structure Binary where
  /-- The mantissa, as a number. -/
  mantissa : Nat
  /-- The power of two of its last bit. -/
  exponent : Int
  /-- Whether the double below is only half as far away as the double above. -/
  narrowBelow : Bool
  deriving DecidableEq, Repr, Inhabited

/-- The magnitude of a finite double, from its bits. -/
def Binary.ofBits (bits : UInt64) : Binary :=
  let biased := ((bits >>> 52) &&& 0x7FF).toNat
  let fraction := (bits &&& 0xFFFFFFFFFFFFF).toNat
  if biased = 0 then ⟨fraction, -1074, false⟩
  else ⟨Nat.pow 2 52 + fraction, (biased : Int) - 1075, fraction == 0 && 1 < biased⟩

/-- Compares a decimal with `n * 2 ^ j`. -/
def compareScaled (d : Decimal) (n : Nat) (j : Int) : Ordering :=
  compare (d.digits * Nat.pow 10 d.exponent.toNat * Nat.pow 2 (-j).toNat)
    (n * Nat.pow 2 j.toNat * Nat.pow 10 (-d.exponent).toNat)

namespace Binary

/-- Whether a decimal lies among the numbers that are nearest to this double. The two ends of the
range belong to it if the mantissa is even. -/
def readsBack (x : Binary) (d : Decimal) : Bool :=
  let ends := x.mantissa % 2 == 0
  let low := d.compareScaled (4 * x.mantissa - if x.narrowBelow then 1 else 2) (x.exponent - 2)
  let high := d.compareScaled (4 * x.mantissa + 2) (x.exponent - 2)
  (low == .gt || (ends && low == .eq)) && (high == .lt || (ends && high == .eq))

/-- The largest multiple of `10 ^ i` that is not above this double, as a multiple. -/
def floorAt (x : Binary) (i : Int) : Nat :=
  x.mantissa * Nat.pow 2 x.exponent.toNat * Nat.pow 10 (-i).toNat
    / (Nat.pow 10 i.toNat * Nat.pow 2 (-x.exponent).toNat)

/-- The largest power of ten, from `i` downwards, that is not above this double. The first argument
bounds the search. -/
def leadingFrom (x : Binary) : Nat → Int → Int
  | 0, i => i
  | n + 1, i => if x.floorAt i = 0 then leadingFrom x n (i - 1) else i

/-- The power of ten of the leading digit. The search covers every double but zero. -/
def leading (x : Binary) : Int :=
  x.leadingFrom 650 309

/-- The best decimal on the grid of multiples of `10 ^ i`, if one of the two around this double
reads back: the nearer one, and of two equally near ones the even one. -/
def onGrid? (x : Binary) (i : Int) : Option Decimal :=
  let n := x.floorAt i
  let below : Decimal := ⟨n, i⟩
  let above : Decimal := ⟨n + 1, i⟩
  match x.readsBack below, x.readsBack above with
  | true, false => some below
  | false, true => some above
  | false, false => none
  | true, true =>
    match (⟨2 * n + 1, i⟩ : Decimal).compareScaled (2 * x.mantissa) x.exponent with
    | .gt => some below
    | .lt => some above
    | .eq => some (if n % 2 = 0 then below else above)

/-- All digits of this double. -/
def exact (x : Binary) : Decimal :=
  if 0 ≤ x.exponent then ⟨x.mantissa * Nat.pow 2 x.exponent.toNat, 0⟩
  else ⟨x.mantissa * Nat.pow 5 (-x.exponent).toNat, x.exponent⟩

/-- The shortest decimal that reads back as this double, which is not zero. Seventeen digits are
always enough. -/
def shortest (x : Binary) : Decimal :=
  ((List.range 17).findSome? fun (n : Nat) => x.onGrid? (x.leading - n)).getD x.exact

end Binary

/-- Moves the zeros at the end of the digits into the exponent. The first argument bounds their
number. -/
def stripZeros : Nat → Decimal → Decimal
  | 0, d => d
  | n + 1, d =>
    if d.digits ≠ 0 && d.digits % 10 = 0 then stripZeros n ⟨d.digits / 10, d.exponent + 1⟩ else d

end Decimal

end Highlighting
