import Highlighting.Json.Numeral
import Highlighting.Text.Numeral

/-!
# Reading JSON texts

A text is read one character at a time. The state of the reader is the arrays and objects that are
not yet closed and what it is in the middle of, so texts of any depth can be read, and where a
text goes wrong is a number of characters.

A text is read in one of two ways. A lenient reading checks the grammar alone and turns what has no
reading into `Json.unreadable`; it serves decoders that pass over some members. A strict reading
stops at such a place, and also where arrays and objects nest too deeply.

## Main definitions

* `Json.Reader.State`, `Json.Reader.State.step`: the reader and what a character does to it
* `Json.read?`: the lenient reading
* `Json.readStrict`: the strict reading, or the line at which it stops
-/

namespace Highlighting

namespace Json

namespace Reader

/-- An array or object that is not yet closed. -/
inductive Frame where
  /-- An array with the items so far, latest first. -/
  | array (items : List Json)
  /-- An object with the members so far, latest first, and the name of the member that is being
  read. A name that cannot be read is absent. -/
  | object (members : List (Option String × Json)) (name : Option String)

/-- The value that a closed array or object is. -/
def Frame.close : Frame → Json
  | .array items => .arr items.reverse
  | .object members _ =>
    match members.reverse.mapM fun (name, v) => name.map (·, v) with
    | none => .unreadable
    | some members => .obj members

/-- How far a number has been read. -/
inductive NumeralPhase where
  /-- Behind the minus sign. -/
  | minus
  /-- Behind a leading zero. -/
  | zero
  /-- In the digits before the point. -/
  | whole
  /-- Behind the point. -/
  | point
  /-- In the digits behind the point. -/
  | fraction
  /-- Behind the mark of the exponent. -/
  | mark
  /-- Behind the sign of the exponent. -/
  | sign
  /-- In the digits of the exponent. -/
  | exponent
  deriving DecidableEq

/-- A string that is being read. -/
structure OpenText where
  /-- Whether it is the name of a member. -/
  isName : Bool
  /-- The characters so far, latest first. -/
  chars : List Char := []
  /-- Whether it is a sequence of characters so far. -/
  readable : Bool := true

/-- How far an escape in a string has been read. -/
inductive TextPhase where
  /-- Outside of escapes. -/
  | plain
  /-- Behind a backslash. -/
  | escape
  /-- In an escape by number, with the bytes that it still takes, the number so far if all of them
  were hexadecimal digits, and the first half of a surrogate pair if one came before. -/
  | hex (remaining : Nat) (number : Option Nat) (high : Option Nat)
  /-- Behind the first half of a surrogate pair. -/
  | pair (high : Nat)
  /-- Behind the first half of a surrogate pair and a backslash. -/
  | pairEscape (high : Nat)

/-- What the reader is in the middle of. -/
inductive Focus where
  /-- A value has to follow. -/
  | value
  /-- The first item of an array has to follow, or its end. -/
  | firstItem
  /-- The first name of an object has to follow, or its end. -/
  | firstName
  /-- A name has to follow. -/
  | nextName
  /-- A colon has to follow. -/
  | colon
  /-- A value is complete. -/
  | after
  /-- A word that stands for a value, with the characters that are still missing. -/
  | word (missing : List Char) (value : Json)
  /-- A number, its digits latest first. -/
  | numeral (phase : NumeralPhase) (x : Numeral)
  /-- A string. -/
  | text (phase : TextPhase) (t : OpenText)

/-- The state of the reader. -/
structure State where
  /-- What is not yet closed, innermost first. -/
  stack : List Frame := []
  /-- How much that is. -/
  depth : Nat := 0
  /-- The whole value, once it is complete. -/
  root : Option Json := none
  /-- What comes next. -/
  focus : Focus := .value

/-- Which character is to blame for a text that goes wrong. -/
inductive Blame where
  /-- The character at which it is noticed. -/
  | this
  /-- The character before. -/
  | previous

/-- Whether a character separates the parts of a text. -/
def isSpace (c : Char) : Bool :=
  c == ' ' || c == '\n' || c == '\t' || c == '\r'

/-- Whether a number is the first half of a surrogate pair. -/
def isHigh (n : Nat) : Bool := 0xD800 ≤ n && n ≤ 0xDBFF

/-- Whether a number is the second half of a surrogate pair. -/
def isLow (n : Nat) : Bool := 0xDC00 ≤ n && n ≤ 0xDFFF

namespace State

/-- Takes a complete value into the array or object around it. -/
def complete (s : State) (v : Json) : State :=
  match s.stack with
  | [] => { s with root := some v, focus := .after }
  | .array items :: rest => { s with stack := .array (v :: items) :: rest, focus := .after }
  | .object members name :: rest =>
    { s with stack := .object ((name, v) :: members) none :: rest, focus := .after }

/-- Begins an array or an object. -/
def push (strict : Bool) (s : State) (frame : Frame) (focus : Focus) : Except Blame State :=
  if strict && maxDepth ≤ s.depth then .error .this
  else .ok { s with stack := frame :: s.stack, depth := s.depth + 1, focus }

/-- Ends the innermost array or object. -/
def pop (s : State) : State :=
  match s.stack with
  | [] => s
  | frame :: rest => { s with stack := rest, depth := s.depth - 1 }.complete frame.close

/-- Begins a value with its first character. -/
def begin (strict : Bool) (s : State) (c : Char) : Except Blame State :=
  match c with
  | 'n' => .ok { s with focus := .word ['u', 'l', 'l'] .null }
  | 't' => .ok { s with focus := .word ['r', 'u', 'e'] (.bool true) }
  | 'f' => .ok { s with focus := .word ['a', 'l', 's', 'e'] (.bool false) }
  | '"' => .ok { s with focus := .text .plain ⟨false, [], true⟩ }
  | '[' => s.push strict (.array []) .firstItem
  | '\x7b' => s.push strict (.object [] none) .firstName
  | '-' => .ok { s with focus := .numeral .minus { negative := true, whole := [] } }
  | '0' => .ok { s with focus := .numeral .zero { negative := false, whole := [0] } }
  | _ =>
    if c.isDigit then
      .ok { s with focus := .numeral .whole { negative := false, whole := [c.toNat - 48] } }
    else
      .error .this

/-- Goes on after a complete value. -/
def goOn (s : State) (c : Char) : Except Blame State :=
  if isSpace c then .ok s
  else
    match s.stack with
    | [] => .error .this
    | .array _ :: _ =>
      if c == ',' then .ok { s with focus := .value }
      else if c == ']' then .ok s.pop
      else .error .this
    | .object _ _ :: _ =>
      if c == ',' then .ok { s with focus := .nextName }
      else if c == '\x7d' then .ok s.pop
      else .error .this

/-- Begins the name of a member. -/
def beginName (s : State) (c : Char) : Except Blame State :=
  if c == '"' then .ok { s with focus := .text .plain ⟨true, [], true⟩ } else .error .this

/-! ### Numbers -/

/-- The number that has been read, with its digits in order. -/
def finishNumeral (x : Numeral) : Json :=
  { x with
    whole := x.whole.reverse
    fraction := x.fraction.map List.reverse
    exponent := x.exponent.map fun (negative, ds) => (negative, ds.reverse) : Numeral }.value

/-- Completes a number, if it can be read. -/
def completeNumeral (strict : Bool) (s : State) (x : Numeral) : Except Blame State :=
  match finishNumeral x with
  | .unreadable => if strict then .error .previous else .ok (s.complete .unreadable)
  | v => .ok (s.complete v)

/-- Completes a number and goes on with the character that ended it. -/
def endNumeral (strict : Bool) (s : State) (x : Numeral) (c : Char) : Except Blame State := do
  (← s.completeNumeral strict x).goOn c

/-- Goes on in a number. -/
def stepNumeral (strict : Bool) (s : State) (phase : NumeralPhase) (x : Numeral) (c : Char) :
    Except Blame State :=
  let d := c.toNat - 48
  let go (phase : NumeralPhase) (x : Numeral) : Except Blame State :=
    .ok { s with focus := .numeral phase x }
  let digit (phase : NumeralPhase) (x : Numeral) : Except Blame State :=
    if c.isDigit then go phase x else .error .this
  let isMark := c == 'e' || c == 'E'
  let inWhole := { x with whole := d :: x.whole }
  let inFraction := { x with fraction := some (d :: x.fraction.getD []) }
  let inExponent :=
    { x with
      exponent := x.exponent.map fun (negative, ds) => (negative, d :: ds) }
  match phase with
  | .minus =>
    if c == '0' then go .zero inWhole else digit .whole inWhole
  | .zero =>
    if c.isDigit then .error .this
    else if c == '.' then go .point { x with fraction := some [] }
    else if isMark then go .mark { x with exponent := some (false, []) }
    else s.endNumeral strict x c
  | .whole =>
    if c.isDigit then go .whole inWhole
    else if c == '.' then go .point { x with fraction := some [] }
    else if isMark then go .mark { x with exponent := some (false, []) }
    else s.endNumeral strict x c
  | .point => digit .fraction inFraction
  | .fraction =>
    if c.isDigit then go .fraction inFraction
    else if isMark then go .mark { x with exponent := some (false, []) }
    else s.endNumeral strict x c
  | .mark =>
    if c == '+' then go .sign x
    else if c == '-' then go .sign { x with exponent := some (true, []) }
    else digit .exponent inExponent
  | .sign => digit .exponent inExponent
  | .exponent =>
    if c.isDigit then go .exponent inExponent
    else s.endNumeral strict x c

/-! ### Strings -/

/-- Goes on in a string behind a character that has been read. -/
def inText (s : State) (t : OpenText) (c : Char) : State :=
  { s with focus := .text .plain { t with chars := c :: t.chars } }

/-- Completes a string. -/
def completeText (s : State) (t : OpenText) : State :=
  let text := if t.readable then some (String.ofList t.chars.reverse) else none
  if t.isName then
    match s.stack with
    | .object members _ :: rest =>
      { s with stack := .object members text :: rest, focus := .colon }
    | _ => s
  else
    s.complete (text.elim .unreadable .str)

/-- Goes on in a string, outside of escapes. -/
def stepPlain (s : State) (t : OpenText) (c : Char) : Except Blame State :=
  if c == '"' then .ok (s.completeText t)
  else if c == '\\' then .ok { s with focus := .text .escape t }
  else if c < ' ' then .error .this
  else .ok (s.inText t c)

/-- Goes on in a string, behind a backslash. -/
def stepEscape (s : State) (t : OpenText) (c : Char) : Except Blame State :=
  match c with
  | '"' | '\\' | '/' => .ok (s.inText t c)
  | 'b' => .ok (s.inText t '\x08')
  | 'f' => .ok (s.inText t '\x0c')
  | 'n' => .ok (s.inText t '\n')
  | 'r' => .ok (s.inText t '\r')
  | 't' => .ok (s.inText t '\t')
  | 'u' => .ok { s with focus := .text (.hex 4 (some 0) none) t }
  | _ => .error .this

/-- Notices that a string is no sequence of characters. -/
def loseText (strict : Bool) (t : OpenText) : Except Blame OpenText :=
  if strict then .error .this else .ok { t with readable := false }

/-- Takes the number of an escape into a string. Two halves of a surrogate pair make one
character. -/
def takeNumber (strict : Bool) (s : State) (t : OpenText) (high : Option Nat) (n : Nat) :
    Except Blame State :=
  match high with
  | some h =>
    if isLow n then
      .ok (s.inText t (Char.ofNat (0x10000 + (h - 0xD800) * 0x400 + (n - 0xDC00))))
    else do
      let t ← loseText strict t
      if isHigh n then .ok { s with focus := .text (.pair n) t }
      else .ok { s with focus := .text .plain t }
  | none =>
    if isHigh n then .ok { s with focus := .text (.pair n) t }
    else if isLow n then do
      let t ← loseText strict t
      .ok { s with focus := .text .plain t }
    else .ok (s.inText t (Char.ofNat n))

/-- Goes on in a string. An escape by number takes four bytes, whatever they are, before they are
looked at. -/
def stepText (strict : Bool) (s : State) (phase : TextPhase) (t : OpenText) (c : Char) :
    Except Blame State :=
  match phase with
  | .plain => s.stepPlain t c
  | .escape => s.stepEscape t c
  | .hex remaining number high =>
    let number := number.bind fun n => (Text.hexDigit? c).map (16 * n + ·)
    if c.utf8Size < remaining then
      .ok { s with focus := .text (.hex (remaining - c.utf8Size) number high) t }
    else
      match number with
      | none => .error .this
      | some n => s.takeNumber strict t high n
  | .pair high =>
    if c == '\\' then .ok { s with focus := .text (.pairEscape high) t }
    else do s.stepPlain (← loseText strict t) c
  | .pairEscape high =>
    if c == 'u' then .ok { s with focus := .text (.hex 4 (some 0) (some high)) t }
    else do s.stepEscape (← loseText strict t) c

/-! ### Whole texts -/

/-- What a character does to the reader. -/
def step (strict : Bool) (s : State) (c : Char) : Except Blame State :=
  match s.focus with
  | .value => if isSpace c then .ok s else s.begin strict c
  | .firstItem =>
    if isSpace c then .ok s
    else if c == ']' then .ok s.pop
    else s.begin strict c
  | .firstName =>
    if isSpace c then .ok s
    else if c == '\x7d' then .ok s.pop
    else s.beginName c
  | .nextName => if isSpace c then .ok s else s.beginName c
  | .colon =>
    if isSpace c then .ok s
    else if c == ':' then .ok { s with focus := .value }
    else .error .this
  | .after => s.goOn c
  | .word missing v =>
    match missing with
    | [] => .error .this
    | m :: missing =>
      if c != m then .error .this
      else if missing.isEmpty then .ok (s.complete v)
      else .ok { s with focus := .word missing v }
  | .numeral phase x => s.stepNumeral strict phase x c
  | .text phase t => s.stepText strict phase t c

/-- The value that has been read when the text is over, if it is complete. -/
def finish? (strict : Bool) (s : State) : Option Json :=
  match s.focus with
  | .after => s.root
  | .numeral phase x =>
    match phase with
    | .zero | .whole | .fraction | .exponent =>
      match s.completeNumeral strict x with
      | .ok s => s.root
      | .error _ => none
    | .minus | .point | .mark | .sign => none
  | _ => none

/-- Reads a text, and counts its characters. A failure is the number of characters up to the one
that is to blame. -/
def run (strict : Bool) : State → List Char → Nat → Except Nat Json
  | s, [], n => (s.finish? strict).elim (.error n) .ok
  | s, c :: cs, n =>
    match s.step strict c with
    | .ok s => run strict s cs (n + 1)
    | .error .this => .error (n + 1)
    | .error .previous => .error n

end State

end Reader

/-- The lenient reading of a text. -/
def read? (text : String) : Option Json :=
  (Reader.State.run false {} text.toList 0).toOption

/-- The strict reading of a text, or the line on which it stops, counting from one. -/
def readStrict (text : String) : Except Nat Json :=
  (Reader.State.run true {} text.toList 0).mapError fun n =>
    (text.toList.take n).count '\n' + 1

end Json

end Highlighting
