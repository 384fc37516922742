import Highlighting.Settings.Toml.Table
import Highlighting.Settings.Toml.Word

/-!
# Settings files

A settings file is written in TOML: names with values, one to a line, in tables that begin with
their header in brackets. A value is a string, a number, a truth value, a date or a time, an array,
which may run over several lines, or a table in braces. A name may be given a value only once.
Values in values, and the names of one key, go less than eighty levels deep.

A text is read in two passes, first into tokens and then into a table. The second pass goes from
token to token and keeps the arrays and the tables in braces that are open.

## Main definitions

* `Settings.Toml.State`: what has been read of a file
* `Settings.Toml.parse?`: the table that a text means
-/

namespace Highlighting

namespace Settings

namespace Toml

/-- The number of levels from which on values and keys are too deep. -/
def maxDepth : Nat := 80

/-- What a key is for. -/
inductive Use where
  /-- A value. -/
  | value
  /-- The header of a table. -/
  | table
  /-- The header of a table of an array. -/
  | append
  deriving DecidableEq, Repr, Inhabited

/-- An array or a table in braces that is open. -/
inductive Frame where
  /-- An array, with its items so far, last one first. -/
  | array (items : List Value)
  /-- A table in braces, with the key of the value that is being read, last name first. -/
  | braces (table : Table) (key : List String)
  deriving Inhabited

/-- What may come next in a settings file. The names of a key are kept last one first. -/
inductive Phase where
  /-- A header, a key or the end. -/
  | start
  /-- The end of a line. -/
  | lineEnd
  /-- A name of a key. -/
  | name (use : Use) (names : List String)
  /-- A dot and another name of a key, or what stands behind the key. -/
  | named (use : Use) (names : List String)
  /-- A value. -/
  | value
  /-- An item of an array, or its end. -/
  | item
  /-- A key in braces, or the brace at their end. -/
  | member
  /-- What stands behind an item of an array or a value in braces. -/
  | separator
  deriving Inhabited

/-- A reader of settings files. -/
structure State where
  /-- The table of the whole file. -/
  root : Table := []
  /-- The last header. -/
  header : List String := []
  /-- The key of the value that is being read, last name first. -/
  key : List String := []
  /-- The arrays and the tables in braces that are open, innermost first. -/
  frames : List Frame := []
  /-- What may come next. -/
  phase : Phase := .start

/-- The names and dots that a word consists of. A dot is nothing. -/
def keyParts (chars : List Char) : List (Option String) :=
  (((String.ofList chars).splitOn ".").map some |>.intersperse none).filter (· != some "")

namespace State

/-- Goes on with something else. -/
def turn (s : State) (phase : Phase) : State :=
  { s with phase }

/-- Reads another name of a key. -/
def addName? (s : State) (name : String) : Option State :=
  match s.phase with
  | .name use names =>
    if names.length + 1 < maxDepth then some (s.turn (.named use (name :: names))) else none
  | _ => none

/-- Reads a part of a word in a key. -/
def keyStep? (s : State) : Option String → Option State
  | some name => if name.all isNameChar then s.addName? name else none
  | none =>
    match s.phase with
    | .named use names => some (s.turn (.name use names))
    | _ => none

/-- Reads a token of a key. -/
def keyToken? (s : State) : Token → Option State
  | .word chars => (keyParts chars).foldlM keyStep? s
  | .text name => s.addName? name
  | _ => none

/-- Gives a value to a key of a table. The names of the key are last one first. -/
def define? (key : List String) (v : Value) (t : Table) : Option Table :=
  match key with
  | [] => none
  | name :: path => t.define? path.reverse name v

/-- Ends a value. -/
def complete? (s : State) (v : Value) : Option State :=
  match s.frames with
  | [] =>
    (s.root.beneath? s.header (define? s.key v)).map fun root =>
      { s with root, phase := .lineEnd }
  | .array items :: frames =>
    some { s with frames := .array (v :: items) :: frames, phase := .separator }
  | .braces table key :: frames =>
    (define? key v table).map fun table =>
      { s with frames := .braces table [] :: frames, phase := .separator }

/-- Opens an array or a table in braces. -/
def push? (s : State) (frame : Frame) (phase : Phase) : Option State :=
  if s.frames.length + 1 < maxDepth then some { s with frames := frame :: s.frames, phase }
  else none

/-- Closes the innermost array. -/
def closeArray? (s : State) : Option State :=
  match s.frames with
  | .array items :: frames => { s with frames }.complete? (.arr items.reverse)
  | _ => none

/-- Closes the innermost table in braces. -/
def closeBraces? (s : State) : Option State :=
  match s.frames with
  | .braces table _ :: frames => { s with frames }.complete? table.toValue
  | _ => none

/-- Reads the token of a value. -/
def valueToken? (s : State) : Token → Option State
  | .word chars => (word? chars).bind s.complete?
  | .text v | .block v => s.complete? (.str v)
  | .left => s.push? (.array []) .item
  | .leftPair => (s.push? (.array []) .item).bind fun s => s.push? (.array []) .item
  | .openBrace => s.push? (.braces [] []) .member
  | _ => none

/-- Whether the innermost open value is an array, in which lines may end. -/
def inArray (s : State) : Bool :=
  match s.frames with
  | .array _ :: _ => true
  | _ => false

/-- Goes from a key to its value. -/
def beginValue (s : State) (names : List String) : State :=
  match s.frames with
  | .braces table _ :: frames => { s with frames := .braces table names :: frames, phase := .value }
  | _ => { s with key := names, phase := .value }

/-- Takes the header of a table, by its names, last one first. -/
def takeHeader? (s : State) (names : List String)
    (f : List String → String → Table → Option Table) : Option State :=
  match names with
  | [] => none
  | name :: path =>
    (f path.reverse name s.root).map fun root =>
      { s with root, header := names.reverse, phase := .lineEnd }

/-- Reads the token behind a key. -/
def afterKey? (s : State) (names : List String) : Use → Token → Option State
  | .value, .equals => some (s.beginValue names)
  | .table, .right => s.takeHeader? names Table.declare?
  | .append, .rightPair => s.takeHeader? names Table.append?
  | _, t => s.keyToken? t

/-- Reads the token behind an item of an array or a value in braces. -/
def separate? (s : State) : Token → Option State
  | .comma => some (s.turn (if s.inArray then .item else .name .value []))
  | .right => s.closeArray?
  | .rightPair => s.closeArray?.bind closeArray?
  | .closeBrace => s.closeBraces?
  | .newline => if s.inArray then some s else none
  | _ => none

/-- What a token does to the reader. -/
def step? (s : State) (t : Token) : Option State :=
  match s.phase, t with
  | .start, .newline => some s
  | .start, .left => some (s.turn (.name .table []))
  | .start, .leftPair => some (s.turn (.name .append []))
  | .start, t => (s.turn (.name .value [])).keyToken? t
  | .lineEnd, .newline => some (s.turn .start)
  | .lineEnd, _ => none
  | .name .., t => s.keyToken? t
  | .named use names, t => s.afterKey? names use t
  | .value, t => s.valueToken? t
  | .item, .newline => some s
  | .item, .right => s.closeArray?
  | .item, .rightPair => s.closeArray?.bind closeArray?
  | .item, t => s.valueToken? t
  | .member, .closeBrace => s.closeBraces?
  | .member, t => (s.turn (.name .value [])).keyToken? t
  | .separator, t => s.separate? t

/-- The table that has been read when the tokens are over. -/
def finish? (s : State) : Option Value :=
  match s.phase with
  | .start | .lineEnd => some s.root.toValue
  | _ => none

end State

/-- The table that a text means. -/
def parse? (text : String) : Option Value := do
  let state ← (← tokens? text).foldlM State.step? {}
  state.finish?

end Toml

end Settings

end Highlighting
