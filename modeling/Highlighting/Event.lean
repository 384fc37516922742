import Highlighting.Text.Quoted
import Highlighting.Token

/-!
# Events of a parser

A parser reports its work as a list of events: it enters a production, passes a token, hidden or
visible, and leaves the production again. A token is reported with its text alone, or with its span
as well. Not every list of events describes a parse, and there is one error for each way in which it
may not.

## Main definitions

* `Lexeme`, `Event`: what a parser reports
* `Parse.Error`: why events make no parse, and `Parse.Error.message`
-/

namespace Highlighting

/-- A token as a parser reports it. -/
structure Lexeme where
  /-- What the lexer took it for. -/
  kind : TokenKind
  /-- Its text. -/
  text : String
  /-- Where it stands, if the parser knows; otherwise its text has to be found in the source. -/
  place : Option Span := none
  deriving DecidableEq, Repr, Inhabited

/-- One step of a parser. -/
inductive Event where
  /-- A production begins. -/
  | enter (rule : RuleId)
  /-- A visible token, which belongs to the production begun last. -/
  | token (lexeme : Lexeme)
  /-- A token that joins the stream but not the tree. -/
  | hidden (lexeme : Lexeme)
  /-- The production begun last ends. -/
  | leave
  deriving DecidableEq, Repr, Inhabited

namespace Parse

/-- Why a list of events does not describe a parse. -/
inductive Error where
  /-- The source does not go on with the text of a token. -/
  | tokenMismatch (text : String) (offset : Nat)
  /-- A token covers no character. -/
  | emptyToken (offset : Nat)
  /-- A visible token stands outside of every production. -/
  | tokenOutsideNode (text : String)
  /-- A token begins before the end of the one before it. -/
  | outOfOrder (start cursor : Nat)
  /-- A token reaches past the end of the source. -/
  | outOfBounds (span : Span) (length : Nat)
  /-- Some productions do not end. -/
  | unbalanced (count : Nat)
  /-- A production ends that did not begin. -/
  | leaveWithoutEnter
  /-- No production begins. -/
  | noRoot
  /-- A production begins after the outermost one has ended. -/
  | multipleRoots
  deriving DecidableEq, Repr, Inhabited

/-- The wording of an error. -/
def Error.message : Error → String
  | tokenMismatch text offset =>
    "token " ++ Text.quoted text ++ s!" does not match the source at offset {offset}"
  | emptyToken offset => s!"empty token text at offset {offset}"
  | tokenOutsideNode text =>
    "token " ++ Text.quoted text ++ " appears outside of any production"
  | outOfOrder start cursor =>
    s!"token at offset {start} starts before the previous token ends (cursor {cursor})"
  | outOfBounds span length =>
    s!"token span {span.start}..={span.stop} exceeds the source length {length}"
  | unbalanced count => s!"{count} production(s) left open"
  | leaveWithoutEnter => "finish_node called with no open production"
  | noRoot => "no production was started"
  | multipleRoots => "a second root production was started"

end Parse

end Highlighting
