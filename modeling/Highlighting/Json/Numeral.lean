import Highlighting.Json

/-!
# Numbers in JSON texts

A number that has neither a fraction nor an exponent and that fits 64 bits, signed if it is
negative and unsigned otherwise, is an integer; negative zero is not. Every other number is read
as a double. Its digits are gathered into a significand of 64 bits and the significand is scaled
by a power of ten in one floating-point operation, so a long number may differ from the nearest
double in the last place. A number beyond the largest double cannot be read.

## Main definitions

* `Json.Numeral`: a number as it is written
* `Json.Numeral.value`: what it stands for
-/

namespace Highlighting

namespace Json

/-- A number as it is written, by its digits. -/
structure Numeral where
  /-- Whether a minus sign stands in front. -/
  negative : Bool
  /-- The digits before the point. -/
  whole : List Nat
  /-- The digits behind the point, if there is one. -/
  fraction : Option (List Nat) := none
  /-- Whether the exponent has a minus sign, and its digits, if there is one. -/
  exponent : Option (Bool × List Nat) := none
  deriving Repr, Inhabited

namespace Numeral

/-- The largest significand. -/
def maxSignificand : Nat := Nat.pow 2 64 - 1

/-- The largest exponent that is computed with. -/
def maxExponent : Nat := Nat.pow 2 31 - 1

/-- The number that digits denote. -/
def ofDigits (ds : List Nat) : Nat :=
  ds.foldl (fun n d => 10 * n + d) 0

/-- Appends digits to a significand as long as it does not become too large. The second component
is the digits that are left. -/
def gather (significand : Nat) : List Nat → Nat × List Nat
  | [] => (significand, [])
  | d :: ds =>
    if 10 * significand + d ≤ maxSignificand then gather (10 * significand + d) ds
    else (significand, d :: ds)

/-- A power of ten as a double. -/
def tenTo (n : Nat) : Float :=
  Float.ofScientific 1 false n

/-- The exponent of the largest power of ten that is a double. -/
def maxTenTo : Nat := 308

/-- Divides by a power of ten, in several steps if it is no double. The first argument bounds
their number: after two steps nothing is left of a significand. -/
def divideByTenTo : Nat → Float → Nat → Float
  | 0, f, _ => f
  | steps + 1, f, n =>
    if n ≤ maxTenTo then f / tenTo n
    else if f == 0 then f
    else divideByTenTo steps (f / tenTo maxTenTo) (n - maxTenTo)

/-- Multiplies by a power of ten, unless the result is too large. -/
def multiplyByTenTo? (f : Float) (n : Nat) : Option Float :=
  if n ≤ maxTenTo then some (f * tenTo n) |>.filter fun g => !g.isInf
  else if f == 0 then some f
  else none

/-- A significand times a power of ten as a double, unless it is too large. -/
def scale? (significand : Nat) : Int → Option Float
  | .ofNat n => multiplyByTenTo? (Float.ofNat significand) n
  | .negSucc n => some (divideByTenTo 3 (Float.ofNat significand) (n + 1))

/-- The number as a double without its sign, unless it is too large. -/
def magnitude? (x : Numeral) : Option Float :=
  let (significand, dropped) := gather 0 x.whole
  let fraction := x.fraction.getD []
  let (significand, ignored) := gather significand fraction
  let point : Int := dropped.length - (fraction.length - ignored.length : Nat)
  match x.exponent with
  | none => scale? significand point
  | some (negative, ds) =>
    let e := ofDigits ds
    if e ≤ maxExponent then scale? significand (if negative then point - e else point + e)
    else if negative || significand == 0 then some 0
    else none

/-- The number as a double. -/
def double (x : Numeral) : Json :=
  match x.magnitude? with
  | none => .unreadable
  | some f => .float (if x.negative then -f else f)

/-- What a number stands for. -/
def value (x : Numeral) : Json :=
  if x.fraction.isSome || x.exponent.isSome then
    x.double
  else
    let n := ofDigits x.whole
    if x.negative then
      if 0 < n && n ≤ Nat.pow 2 63 then .int (-n) else x.double
    else
      if n ≤ maxSignificand then .int n else x.double

end Numeral

end Json

end Highlighting
