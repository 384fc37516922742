import Highlighting.Decimal.Shortest
import Highlighting.Json

/-!
# Writing JSON texts

A value is written on one line without spaces, or indented by two spaces with one item or member
to a line. Strings escape what the grammar asks for and nothing else. A double is written with the
fewest digits that identify it, positionally from `10 ^ -5` to below `10 ^ 16`, and always with a
point or an exponent. An exponent has its sign, be it plus or minus.

## Main definitions

* `Json.numberText`: a double
* `Json.compact`: a value on one line
* `Json.indented`: a value over several lines
-/

namespace Highlighting

namespace Json

/-- Zeros. -/
def zeros (n : Nat) : String :=
  String.ofList (List.replicate n '0')

/-- An exponent with its sign. -/
def exponentText (n : Int) : String :=
  if n < 0 then s!"e{n}" else s!"e+{n}"

/-- A decimal that is not negative. The point stands behind the first `point` digits. -/
def decimalText (d : Decimal) : String :=
  let digits := (toString d.digits).toList
  let point : Int := digits.length + d.exponent
  if 0 ≤ d.exponent && point ≤ 16 then
    String.ofList digits ++ zeros d.exponent.toNat ++ ".0"
  else if 0 < point && point ≤ 16 then
    String.ofList (digits.take point.toNat) ++ "." ++ String.ofList (digits.drop point.toNat)
  else if -5 < point && point ≤ 0 then
    "0." ++ zeros (-point).toNat ++ String.ofList digits
  else
    let tail := digits.drop 1
    String.ofList (digits.take 1) ++ (if tail.isEmpty then "" else "." ++ String.ofList tail)
      ++ exponentText (point - 1)

/-- A finite double. -/
def numberText (x : Float) : String :=
  let bits := x.toBits
  let sign := if bits >>> 63 == 1 then "-" else ""
  let magnitude := Decimal.Binary.ofBits bits
  if magnitude.mantissa = 0 then sign ++ "0.0"
  else sign ++ decimalText (magnitude.shortest.stripZeros 20)

/-- A character inside a string. -/
def escapeChar (c : Char) : String :=
  match c with
  | '"' => "\\\""
  | '\\' => "\\\\"
  | '\x08' => "\\b"
  | '\x0c' => "\\f"
  | '\n' => "\\n"
  | '\r' => "\\r"
  | '\t' => "\\t"
  | _ =>
    if c < ' ' then
      "\\u00" ++ String.ofList [Nat.digitChar (c.toNat / 16), Nat.digitChar (c.toNat % 16)]
    else c.toString

/-- A string between its quotes. -/
def stringText (s : String) : String :=
  "\"" ++ String.join (s.toList.map escapeChar) ++ "\""

mutual

/-- A value on one line. What cannot be read is written as `null`. -/
def compact : Json → String
  | .null | .unreadable => "null"
  | .bool true => "true"
  | .bool false => "false"
  | .int n => toString n
  | .float x => numberText x
  | .str s => stringText s
  | .arr items => "[" ++ String.intercalate "," (compactItems items) ++ "]"
  | .obj members => "\x7b" ++ String.intercalate "," (compactMembers members) ++ "\x7d"

/-- The items of an array, each on one line. -/
def compactItems : List Json → List String
  | [] => []
  | v :: vs => compact v :: compactItems vs

/-- The members of an object, each on one line. -/
def compactMembers : List (String × Json) → List String
  | [] => []
  | (name, v) :: rest => (stringText name ++ ":" ++ compact v) :: compactMembers rest

end

/-- Lines between brackets, one level deeper than the brackets. -/
def bracketed (left right indent : String) (lines : List String) : String :=
  if lines.isEmpty then left ++ right
  else
    left ++ "\n" ++ String.intercalate ",\n" (lines.map (indent ++ "  " ++ ·)) ++ "\n" ++ indent
      ++ right

mutual

/-- A value over several lines, all but the first indented. -/
def indented (indent : String) : Json → String
  | .arr items => bracketed "[" "]" indent (indentedItems (indent ++ "  ") items)
  | .obj members => bracketed "\x7b" "\x7d" indent (indentedMembers (indent ++ "  ") members)
  | v => compact v

/-- The items of an array over several lines. -/
def indentedItems (indent : String) : List Json → List String
  | [] => []
  | v :: vs => indented indent v :: indentedItems indent vs

/-- The members of an object over several lines. -/
def indentedMembers (indent : String) : List (String × Json) → List String
  | [] => []
  | (name, v) :: rest =>
    (stringText name ++ ": " ++ indented indent v) :: indentedMembers indent rest

end

end Json

end Highlighting
