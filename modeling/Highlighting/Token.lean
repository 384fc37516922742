/-!
# Tokens

Source positions are character offsets and spans are inclusive at both ends. A token has a kind,
a number that the lexer assigns, a span and a text.

## Main definitions

* `Span`, `Span.length`, `Span.isEmpty`
* `TokenKind`, `RuleId`: the numbers that lexer and parser assign
* `Token`, and `StreamToken`, a token with the production around it
-/

namespace Highlighting

/-- An inclusive range of character offsets. -/
structure Span where
  /-- The first offset. -/
  start : Nat
  /-- The last offset. -/
  stop : Nat
  deriving DecidableEq, Repr, Inhabited

/-- The number of characters covered; a span that stops before it starts covers none. -/
def Span.length (s : Span) : Nat :=
  s.stop + 1 - s.start

/-- Whether no character is covered. -/
def Span.isEmpty (s : Span) : Bool :=
  s.length == 0

/-- The kind of a token, as numbered by the lexer. -/
abbrev TokenKind := UInt16

/-- A production of the grammar, as numbered by the parser. -/
abbrev RuleId := UInt16

/-- The kind of the synthetic token at the end of a file. -/
def TokenKind.endOfFile : TokenKind := 65535

/-- A token with its place in the source. -/
structure Token where
  /-- What the lexer took it for. -/
  kind : TokenKind
  /-- Where it stands. -/
  span : Span
  /-- Its text. -/
  text : String
  deriving DecidableEq, Repr, Inhabited

/-- A token of the stream of a file, hidden tokens (comments, directives) included. -/
structure StreamToken where
  /-- The token itself. -/
  token : Token
  /-- The innermost production around a visible token; a hidden token has none. -/
  parent : Option RuleId
  deriving DecidableEq, Repr, Inhabited

end Highlighting
