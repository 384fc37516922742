import Highlighting.Settings.Value
import Highlighting.Text.Numeral

/-!
# Places of settings as text

A place is written as names with dots between them, as in `engine.cpp`. An item of an array is
written with its index in brackets, as in `evaluation.tasks[0]`.

## Main definitions

* `Settings.Path.parse?`: the steps that a text means
-/

namespace Highlighting

namespace Settings

namespace Path

/-- What a reader of paths is in the middle of. The characters of a name or a number are kept last
one first. -/
inductive Focus where
  /-- A name. -/
  | name (chars : List Char)
  /-- An index, of which only blanks have been seen. -/
  | bracket
  /-- An index, of which a minus sign has been seen. -/
  | minus
  /-- The digits of an index. -/
  | digits (isNegative : Bool) (value : Nat)
  /-- The blanks after an index. -/
  | spaced (index : Int)
  /-- The end of an index. -/
  | closed
  deriving DecidableEq, Repr, Inhabited

/-- A reader of paths. -/
structure State where
  /-- The steps so far, last one first. -/
  steps : List Step := []
  /-- What is being read. -/
  focus : Focus := .name []

/-- Whether a character may be part of a name. -/
def isNameChar (c : Char) : Bool :=
  c.isAlphanum || c == ' ' || c == '_' || c == '-'

/-- Whether a character may stand around an index. -/
def isSpace (c : Char) : Bool :=
  c == ' ' || c == '\t'

namespace State

/-- Ends a name, which may not be empty. -/
def endName? (s : State) (chars : List Char) : Option (List Step) :=
  if chars.isEmpty then none else some (.name (String.ofList chars.reverse) :: s.steps)

/-- Ends an index, which has to fit 64 bits. -/
def endIndex? (s : State) (n : Int) : Option State :=
  if -Int.pow 2 63 ≤ n && n < Int.pow 2 63 then some ⟨.index n :: s.steps, .closed⟩ else none

/-- What a character does to the reader. -/
def step? (s : State) (c : Char) : Option State :=
  match s.focus with
  | .name chars =>
    if isNameChar c then some { s with focus := .name (c :: chars) }
    else
      match c with
      | '.' => do some ⟨← s.endName? chars, .name []⟩
      | '[' => do some ⟨← s.endName? chars, .bracket⟩
      | _ => none
  | .bracket =>
    if isSpace c then some s
    else if c == '-' then some { s with focus := .minus }
    else if c.isDigit then some { s with focus := .digits false (Text.digitValue c) }
    else none
  | .minus =>
    if c.isDigit then some { s with focus := .digits true (Text.digitValue c) } else none
  | .digits isNegative value =>
    let index : Int := if isNegative then -(value : Int) else value
    if c.isDigit then
      some { s with focus := .digits isNegative (10 * value + Text.digitValue c) }
    else if isSpace c then some { s with focus := .spaced index }
    else if c == ']' then s.endIndex? index
    else none
  | .spaced index =>
    if isSpace c then some s
    else if c == ']' then s.endIndex? index
    else none
  | .closed =>
    match c with
    | '.' => some { s with focus := .name [] }
    | '[' => some { s with focus := .bracket }
    | _ => none

/-- The steps that have been read when the text is over. -/
def finish? (s : State) : Option (List Step) :=
  match s.focus with
  | .name chars => s.endName? chars
  | .closed => some s.steps
  | _ => none

end State

/-- The steps that a text means. -/
def parse? (text : String) : Option (List Step) :=
  ((text.toList.foldlM State.step? {}).bind State.finish?).map List.reverse

end Path

end Settings

end Highlighting
