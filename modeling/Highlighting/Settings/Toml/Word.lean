import Highlighting.Decimal.Nearest
import Highlighting.Settings.Toml.Token
import Highlighting.Settings.Value

/-!
# Words of settings files

What a word means where a value stands: a truth value, an integer, a floating-point number, or a
date or a time of day. Integers may be written in hexadecimal, octal or binary, and have to fit 64
bits. Single underscores may stand between digits. A date or a time becomes a text, with the time
after a `T` and without zeros at the end of the fraction of a second.

## Main definitions

* `Settings.Toml.integer?`, `Settings.Toml.float?`, `Settings.Toml.moment?`
* `Settings.Toml.word?`: the value that a word means
-/

namespace Highlighting

namespace Settings

namespace Toml

/-! ### Numbers -/

/-- Characters without the underscores between them. None may stand at either end, and no two next
to each other. -/
def ungrouped? : List Char → Option (List Char)
  | [] => none
  | '_' :: _ => none
  | [c] => some [c]
  | c :: '_' :: cs => (ungrouped? cs).map (c :: ·)
  | c :: cs => (ungrouped? cs).map (c :: ·)

/-- The number that digits of a base denote. -/
def digitsIn? (base : Nat) (chars : List Char) : Option Nat := do
  let digits ← (← ungrouped? chars).mapM fun c => (Text.hexDigit? c).filter (· < base)
  return digits.foldl (fun n d => base * n + d) 0

/-- The number that decimal digits denote. Only zero itself begins with a zero. -/
def decimal? : List Char → Option Nat
  | '0' :: _ :: _ => none
  | chars => digitsIn? 10 chars

/-- Whether a minus sign stands in front, and what follows the sign, if there is one. -/
def signed : List Char → Bool × List Char
  | '-' :: cs => (true, cs)
  | '+' :: cs => (false, cs)
  | cs => (false, cs)

/-- An integer of 64 bits. A sign is for decimal digits only. -/
def integer? (chars : List Char) : Option Int :=
  let n : Option Int :=
    match chars with
    | '0' :: 'x' :: cs => (digitsIn? 16 cs).map Int.ofNat
    | '0' :: 'o' :: cs => (digitsIn? 8 cs).map Int.ofNat
    | '0' :: 'b' :: cs => (digitsIn? 2 cs).map Int.ofNat
    | _ =>
      let (isNegative, cs) := signed chars
      (decimal? cs).map fun n => if isNegative then -(n : Int) else n
  n.filter fun n => -Int.pow 2 63 ≤ n && n < Int.pow 2 63

/-- The digits behind a point and their number. -/
def fraction? (chars : List Char) : Option (Nat × Nat) := do
  let digits ← ungrouped? chars
  return (← Text.digits? digits, digits.length)

/-- The power of ten that is written behind the letter of an exponent. -/
def exponent? (chars : List Char) : Option Int :=
  let (isNegative, cs) := signed chars
  (digitsIn? 10 cs).map fun n => if isNegative then -(n : Int) else n

/-- A number with a point or an exponent or both. -/
def scientific? (chars : List Char) : Option Decimal := do
  let isMark (c : Char) : Bool := c == 'e' || c == 'E'
  guard (chars.any fun c => c == '.' || isMark c)
  let mantissa := chars.takeWhile fun c => !isMark c
  let exponent ← match chars.dropWhile fun c => !isMark c with
    | [] => some 0
    | _ :: cs => exponent? cs
  let whole ← decimal? (mantissa.takeWhile (· != '.'))
  match mantissa.dropWhile (· != '.') with
  | [] => return ⟨whole, exponent⟩
  | _ :: cs =>
    let (fraction, places) ← fraction? cs
    return ⟨whole * Nat.pow 10 places + fraction, exponent - places⟩

/-- A floating-point number. One that is too large is none, unless it is negative. -/
def float? (chars : List Char) : Option Float :=
  let (isNegative, cs) := signed chars
  let x : Option Float :=
    match String.ofList cs with
    | "inf" => some (Decimal.nearest ⟨1, 400⟩)
    | "nan" => some (Decimal.nearest ⟨1, 400⟩ - Decimal.nearest ⟨1, 400⟩)
    | _ => ((scientific? cs).map Decimal.nearest).filter fun x => isNegative || !x.isInf
  x.map fun x => if isNegative then -x else x

/-! ### Dates and times -/

/-- The number of days of a month. -/
def daysIn (year month : Nat) : Nat :=
  if month = 2 then
    if year % 4 = 0 && (year % 100 ≠ 0 || year % 400 = 0) then 29 else 28
  else if [4, 6, 9, 11].contains month then 30
  else 31

/-- Takes a date from the front of a word. -/
def takeDate? (chars : List Char) : Option (String × List Char) := do
  let [y₁, y₂, y₃, y₄, '-', m₁, m₂, '-', d₁, d₂] := chars.take 10 | none
  let year ← Text.digits? [y₁, y₂, y₃, y₄]
  let month ← Text.digits? [m₁, m₂]
  let day ← Text.digits? [d₁, d₂]
  guard (1 ≤ month && month ≤ 12 && 1 ≤ day && day ≤ daysIn year month)
  return (String.ofList (chars.take 10), chars.drop 10)

/-- Takes hours and minutes from the front of a word. -/
def takeMinutes? (chars : List Char) : Option (String × List Char) := do
  let [h₁, h₂, ':', m₁, m₂] := chars.take 5 | none
  guard ((← Text.digits? [h₁, h₂]) ≤ 23 && (← Text.digits? [m₁, m₂]) ≤ 59)
  return (String.ofList (chars.take 5), chars.drop 5)

/-- The fraction of a second that digits denote. Nine of them count. -/
def secondFraction (digits : List Char) : String :=
  let kept := ((digits.take 9).reverse.dropWhile (· == '0')).reverse
  if kept.isEmpty then "" else String.ofList ('.' :: kept)

/-- Takes a time of day from the front of a word. The second may be a leap second. -/
def takeTime? (chars : List Char) : Option (String × List Char) := do
  let (minutes, rest) ← takeMinutes? chars
  let ':' :: s₁ :: s₂ :: rest := rest | none
  guard ((← Text.digits? [s₁, s₂]) ≤ 60)
  let time := minutes ++ String.ofList [':', s₁, s₂]
  match rest with
  | '.' :: rest =>
    let digits := rest.takeWhile Char.isDigit
    guard !digits.isEmpty
    return (time ++ secondFraction digits, rest.dropWhile Char.isDigit)
  | rest => return (time, rest)

/-- The offset of a time from universal time. -/
def offset? (chars : List Char) : Option String :=
  match chars with
  | [] => some ""
  | ['Z'] | ['z'] => some "Z"
  | sign :: cs => do
    guard (sign == '+' || sign == '-')
    let (minutes, []) ← takeMinutes? cs | none
    return (if minutes == "00:00" then "+" else sign.toString) ++ minutes

/-- A date, a time of day, or both. -/
def moment? (chars : List Char) : Option String :=
  match takeDate? chars with
  | none => (takeTime? chars).bind fun (time, rest) => if rest.isEmpty then some time else none
  | some (date, []) => some date
  | some (date, mark :: cs) => do
    guard (mark == 'T' || mark == 't' || mark == ' ')
    let (time, rest) ← takeTime? cs
    return date ++ "T" ++ time ++ (← offset? rest)

/-! ### Words -/

/-- The value that a word means. -/
def word? (chars : List Char) : Option Value :=
  match String.ofList chars with
  | "true" => some (.bool true)
  | "false" => some (.bool false)
  | _ =>
    ((integer? chars).map .int).or
      (((float? chars).map .float).or ((moment? chars).map .str))

end Toml

end Settings

end Highlighting
