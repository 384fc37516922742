import Highlighting.Arena
import Highlighting.Event
import Highlighting.Text.Blank

/-!
# Building an arena from events

A builder is told the events of a parser one after the other and writes the arena of the parse. It
keeps the productions that have not yet ended on a stack, and the end of the last token as a cursor
in the source. A token that is reported with its text alone is looked for behind the blanks at the
cursor; a token with a span only has to follow the cursor and lie inside the source.

Events are told without waiting for an answer. So the first error is kept, and a builder that has
one ignores what it is told afterwards; `Builder.finish` reports it.

## Main definitions

* `Builder`, `Builder.start`: the state of a builder, and how it begins
* `Builder.fail`: keeping the first error
* `Builder.enter`, `Builder.report`, `Builder.leave`: what it is told
* `Builder.addTerminal`, `Builder.addHidden`: what becomes of a token that can be taken
* `Builder.step`, `Builder.run`: one event, and a list of them
* `Builder.finish`, `Builder.build`: the arena, or what is wrong with the events
-/

namespace Highlighting

/-- The state of a builder: the arena so far, and where the builder stands. -/
structure Builder extends Arena where
  /-- The characters of the source. -/
  chars : Array Char
  /-- The number of characters up to the end of the last token. -/
  cursor : Nat := 0
  /-- The productions that have not yet ended, innermost first. -/
  opened : List Nat := []
  /-- The outermost production, once it has begun. -/
  root : Option Nat := none
  /-- The first error. -/
  error : Option Parse.Error := none
  deriving DecidableEq, Repr

namespace Builder

open Parse (Error)

/-- A builder begins at the start of the source, with nothing open. -/
def start (source : String) : Builder :=
  { chars := source.toList.toArray }

/-- Something is wrong. Only the first error is kept. -/
def fail (b : Builder) (err : Error) : Builder :=
  if b.error.isNone then { b with error := some err } else b

/-! ### Taking a token -/

/-- The offset of the first character from an offset on that is not blank. -/
def skipBlanks (chars : Array Char) (n : Nat) : Nat :=
  if h : n < chars.size then
    if Text.isBlank chars[n] then skipBlanks chars (n + 1) else n
  else
    n
termination_by chars.size - n

/-- The characters between two offsets, if there are that many. -/
def window? (chars : Array Char) (start stop : Nat) : Option (List Char) :=
  if start ≤ stop ∧ stop ≤ chars.size then some (chars.extract start stop).toList else none

/-- Finds the place of a token that is given by its text: behind the blanks at the cursor. The
blanks are passed even if the token is not found. -/
def locate (b : Builder) (kind : TokenKind) (text : String) : Except Error Token × Builder :=
  let start := skipBlanks b.chars b.cursor
  let b := { b with cursor := start }
  let length := text.length
  if length = 0 then
    (.error (.emptyToken start), b)
  else if window? b.chars start (start + length) = some text.toList then
    (.ok ⟨kind, ⟨start, start + length - 1⟩, text⟩, { b with cursor := start + length })
  else
    (.error (.tokenMismatch text start), b)

/-- Checks the place of a token that is given by its span. Its text is taken as it comes. -/
def check (b : Builder) (token : Token) : Except Error Token × Builder :=
  let span := token.span
  if span.isEmpty then
    (.error (.emptyToken span.start), b)
  else if span.start < b.cursor then
    (.error (.outOfOrder span.start b.cursor), b)
  else if span.stop ≥ b.chars.size then
    (.error (.outOfBounds span b.chars.size), b)
  else
    (.ok token, { b with cursor := span.stop + 1 })

/-- The token that a parser reports, with the cursor behind it. -/
def take (b : Builder) (l : Lexeme) : Except Error Token × Builder :=
  match l.place with
  | none => b.locate l.kind l.text
  | some span => b.check ⟨l.kind, span, l.text⟩

/-! ### Events -/

/-- A production begins. -/
def enter (b : Builder) (rule : RuleId) : Builder :=
  let parent := b.opened.head?
  if parent.isNone && b.root.isSome then
    b.fail .multipleRoots
  else
    let n := b.nodes.size
    { b with
      toArena := b.toArena.addNode (.rule rule) parent
      root := if parent.isNone then some n else b.root
      opened := n :: b.opened }

/-- Adds a visible token to the innermost production. -/
def addTerminal (b : Builder) (token : Token) : Builder :=
  match b.opened with
  | [] => b.fail (.tokenOutsideNode token.text)
  | parent :: _ => { b with toArena := b.toArena.addTerminal token parent }

/-- Adds a token that joins the stream but not the tree. -/
def addHidden (b : Builder) (token : Token) : Builder :=
  { b with toArena := b.toArena.addToken token none }

/-- A token is reported, and what is to be done with it if it can be taken. -/
def report (b : Builder) (l : Lexeme) (add : Builder → Token → Builder) : Builder :=
  match b.take l with
  | (.ok token, b) => add b token
  | (.error err, b) => b.fail err

/-- The innermost production ends. -/
def leave (b : Builder) : Builder :=
  match b.opened with
  | [] => b.fail .leaveWithoutEnter
  | n :: below => { b with toArena := b.toArena.endNode n, opened := below }

/-- One event. It is ignored if there is an error already. -/
def step (b : Builder) (e : Event) : Builder :=
  if b.error.isSome then
    b
  else
    match e with
    | .enter rule => b.enter rule
    | .token lexeme => b.report lexeme addTerminal
    | .hidden lexeme => b.report lexeme addHidden
    | .leave => b.leave

/-- Events, one after the other. -/
def run (b : Builder) (events : List Event) : Builder :=
  events.foldl step b

/-! ### The end -/

/-- What has been built when the events are over, or the first error. -/
def finish (b : Builder) : Except Error RootedArena :=
  match b.error with
  | some err => .error err
  | none =>
    if !b.opened.isEmpty then
      .error (.unbalanced b.opened.length)
    else
      match b.root with
      | none => .error .noRoot
      | some root => .ok { b.toArena with root }

/-- The arena of a source that a list of events describes, or the first reason why it describes
none. -/
def build (source : String) (events : List Event) : Except Error RootedArena :=
  ((start source).run events).finish

end Builder

end Highlighting
