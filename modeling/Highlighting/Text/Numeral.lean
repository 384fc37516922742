/-!
# Numbers written as text

A numeral is an optional sign followed by one or more ASCII digits; leading zeros are allowed and
nothing else is. How large the number may be is up to the caller.

## Main definitions

* `Text.digitValue`, `Text.hexDigit?`: single digits
* `Text.digits?`: one or more digits
* `Text.natural?`: digits with an optional plus sign
* `Text.integer?`: digits with an optional plus or minus sign
-/

namespace Highlighting

namespace Text

/-- The value of a digit. -/
def digitValue (c : Char) : Nat :=
  c.toNat - '0'.toNat

/-- The value of a hexadecimal digit. -/
def hexDigit? (c : Char) : Option Nat :=
  if c.isDigit then some (digitValue c)
  else if 'a' ≤ c && c ≤ 'f' then some (c.toNat - 'a'.toNat + 10)
  else if 'A' ≤ c && c ≤ 'F' then some (c.toNat - 'A'.toNat + 10)
  else none

/-- The number that one or more ASCII digits denote. -/
def digits? (cs : List Char) : Option Nat :=
  if cs.isEmpty || !cs.all Char.isDigit then none
  else some (cs.foldl (fun n c => 10 * n + digitValue c) 0)

/-- The number that digits denote, with one plus sign allowed in front of them. -/
def natural? : List Char → Option Nat
  | '+' :: cs => digits? cs
  | cs => digits? cs

/-- The number that digits denote, with one sign allowed in front of them. -/
def integer? : List Char → Option Int
  | '-' :: cs => (digits? cs).map fun n => -(n : Int)
  | cs => (natural? cs).map Int.ofNat

end Text

end Highlighting
