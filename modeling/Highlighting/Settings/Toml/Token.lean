import Highlighting.Text.Numeral

/-!
# Tokens of settings files

A settings file is cut into names, numbers and the like, which are left as words here, strings,
signs and ends of lines. Blanks and comments are dropped, so a token says by itself what the space
around it would have said: two brackets that touch are a token of their own, and a date goes on
over one blank if a digit follows.

A line ends with a line feed, which a carriage return may precede. A string stands between single
or double quotes and on one line, or between three quotes of a kind and over several lines; escapes
are for double quotes only.

## Main definitions

* `Settings.Toml.Token`
* `Settings.Toml.Lexer`: what has been read of a text
* `Settings.Toml.tokens?`: the tokens of a text
-/

namespace Highlighting

namespace Settings

namespace Toml

/-- A token of a settings file. -/
inductive Token where
  /-- A name or names with dots, a number, a date or a truth value. -/
  | word (chars : List Char)
  /-- A string on one line. -/
  | text (s : String)
  /-- A string between three quotes on either side. -/
  | block (s : String)
  /-- An opening bracket. -/
  | left
  /-- A closing bracket. -/
  | right
  /-- Two opening brackets that touch. -/
  | leftPair
  /-- Two closing brackets that touch. -/
  | rightPair
  /-- An opening brace. -/
  | openBrace
  /-- A closing brace. -/
  | closeBrace
  | equals
  | comma
  | newline
  deriving DecidableEq, Repr, Inhabited

/-- The sort of a string. -/
inductive Style where
  /-- Between double quotes, with escapes. -/
  | basic
  /-- Between single quotes, without escapes. -/
  | literal
  deriving DecidableEq, Repr, Inhabited

/-- The quote of a sort of string. -/
def Style.quote : Style → Char
  | basic => '"'
  | literal => '\x27'

/-- What a lexer is in the middle of. The characters of a word or a string are kept last one
first. -/
inductive Focus where
  /-- Nothing. -/
  | ready
  /-- A word. -/
  | word (chars : List Char)
  /-- A date, after which there is a blank. -/
  | dated (chars : List Char)
  /-- A comment. -/
  | comment
  /-- An opening bracket, which may be the first of two. -/
  | left
  /-- A closing bracket, which may be the first of two. -/
  | right
  /-- A string, of which one quote has been seen, and another one if `again` says so. -/
  | opening (style : Style) (again : Bool)
  /-- A string on one line. -/
  | text (style : Style) (chars : List Char)
  /-- A string over several lines, of which only the three quotes have been seen. -/
  | opened (style : Style)
  /-- A string over several lines, and the number of quotes that stand at its end so far. -/
  | block (style : Style) (chars : List Char) (quotes : Nat)
  /-- A string, of which a backslash has been seen. -/
  | escape (isBlock : Bool) (chars : List Char)
  /-- A string, of which some digits of the number of a character are still to come. -/
  | number (isBlock : Bool) (chars : List Char) (missing value : Nat)
  /-- A string over several lines, of which a backslash and blanks have been seen. -/
  | folding (chars : List Char)
  /-- A string over several lines, of which the blanks after a backslash at the end of a line are
  being skipped. -/
  | folded (chars : List Char)
  deriving DecidableEq, Repr, Inhabited

/-- A lexer. -/
structure Lexer where
  /-- The tokens so far, last one first. -/
  tokens : List Token := []
  /-- What is being read. -/
  focus : Focus := .ready

/-- Whether a character may be part of a name without quotes. -/
def isNameChar (c : Char) : Bool :=
  c.isAlphanum || c == '_' || c == '-'

/-- Whether a character may be part of a word. -/
def isWordChar (c : Char) : Bool :=
  isNameChar c || c == '+' || c == '.' || c == ':'

/-- Whether a character may not stand in strings and comments. -/
def isControl (c : Char) : Bool :=
  (c < ' ' && c != '\t') || c == '\x7f'

/-- Whether a character is a blank within a line. -/
def isBlank (c : Char) : Bool :=
  c == ' ' || c == '\t'

/-- Whether characters have the shape of a date: ten digits and hyphens. -/
def isDateShaped (chars : List Char) : Bool :=
  chars.length == 10 && chars.all fun c => c.isDigit || c == '-'

/-- The character that a backslash and a letter mean. -/
def escaped? : Char → Option Char
  | 'b' => some '\x08'
  | 't' => some '\t'
  | 'n' => some '\n'
  | 'f' => some '\x0c'
  | 'r' => some '\r'
  | '"' => some '"'
  | '\\' => some '\\'
  | _ => none

namespace Lexer

/-- Goes on with something else. -/
def turn (s : Lexer) (focus : Focus) : Lexer :=
  { s with focus }

/-- Adds a token. -/
def add (s : Lexer) (t : Token) : Lexer :=
  ⟨t :: s.tokens, .ready⟩

/-- Adds a word. -/
def addWord (s : Lexer) (chars : List Char) : Lexer :=
  s.add (.word chars.reverse)

/-- Adds a string over several lines. The last three quotes are not part of it. -/
def addBlock (s : Lexer) (style : Style) (chars : List Char) (quotes : Nat) : Lexer :=
  s.add (.block (String.ofList (List.replicate (quotes - 3) style.quote ++ chars).reverse))

/-- Begins a token. -/
def begin? (s : Lexer) (c : Char) : Option Lexer :=
  match c with
  | ' ' | '\t' => some (s.turn .ready)
  | '\n' => some (s.add .newline)
  | '#' => some (s.turn .comment)
  | '[' => some (s.turn .left)
  | ']' => some (s.turn .right)
  | '\x7b' => some (s.add .openBrace)
  | '\x7d' => some (s.add .closeBrace)
  | '=' => some (s.add .equals)
  | ',' => some (s.add .comma)
  | '"' => some (s.turn (.opening .basic false))
  | '\x27' => some (s.turn (.opening .literal false))
  | _ => if isWordChar c then some (s.turn (.word [c])) else none

/-- Goes on inside a string. -/
def resume (s : Lexer) (isBlock : Bool) (chars : List Char) : Lexer :=
  s.turn (if isBlock then .block .basic chars 0 else .text .basic chars)

/-- Reads a character of a string that is not its quote. -/
def read? (s : Lexer) (style : Style) (isBlock : Bool) (chars : List Char) (c : Char) :
    Option Lexer :=
  if c == '\\' && style == .basic then some (s.turn (.escape isBlock chars))
  else if isControl c && !(isBlock && c == '\n') then none
  else some (s.turn (if isBlock then .block style (c :: chars) 0 else .text style (c :: chars)))

/-- Reads a character after a backslash. -/
def unescape? (s : Lexer) (isBlock : Bool) (chars : List Char) (c : Char) : Option Lexer :=
  match c with
  | 'u' => some (s.turn (.number isBlock chars 4 0))
  | 'U' => some (s.turn (.number isBlock chars 8 0))
  | _ =>
    if isBlock && isBlank c then some (s.turn (.folding chars))
    else if isBlock && c == '\n' then some (s.turn (.folded chars))
    else (escaped? c).map fun c => s.resume isBlock (c :: chars)

/-- What a character does to the lexer. -/
def step? (s : Lexer) (c : Char) : Option Lexer :=
  match s.focus with
  | .ready => s.begin? c
  | .word chars =>
    if isWordChar c then some (s.turn (.word (c :: chars)))
    else if c == ' ' && isDateShaped chars then some (s.turn (.dated chars))
    else (s.addWord chars).begin? c
  | .dated chars =>
    if c.isDigit then some (s.turn (.word (c :: ' ' :: chars))) else (s.addWord chars).begin? c
  | .comment => if c == '\n' then s.begin? c else if isControl c then none else some s
  | .left => if c == '[' then some (s.add .leftPair) else (s.add .left).begin? c
  | .right => if c == ']' then some (s.add .rightPair) else (s.add .right).begin? c
  | .opening style false =>
    if c == style.quote then some (s.turn (.opening style true)) else s.read? style false [] c
  | .opening style true =>
    if c == style.quote then some (s.turn (.opened style)) else (s.add (.text "")).begin? c
  | .text style chars =>
    if c == style.quote then some (s.add (.text (String.ofList chars.reverse)))
    else s.read? style false chars c
  | .opened style =>
    if c == '\n' then some (s.turn (.block style [] 0))
    else if c == style.quote then some (s.turn (.block style [] 1))
    else s.read? style true [] c
  | .block style chars quotes =>
    if c == style.quote then
      if quotes < 4 then some (s.turn (.block style chars (quotes + 1)))
      else some (s.addBlock style chars (quotes + 1))
    else if 3 ≤ quotes then (s.addBlock style chars quotes).begin? c
    else s.read? style true (List.replicate quotes style.quote ++ chars) c
  | .escape isBlock chars => s.unescape? isBlock chars c
  | .number isBlock chars missing value =>
    (Text.hexDigit? c).bind fun digit =>
      let value := 16 * value + digit
      if 1 < missing then some (s.turn (.number isBlock chars (missing - 1) value))
      else if value.isValidChar then some (s.resume isBlock (Char.ofNat value :: chars))
      else none
  | .folding chars =>
    if isBlank c then some s
    else if c == '\n' then some (s.turn (.folded chars))
    else none
  | .folded chars =>
    if isBlank c || c == '\n' then some s
    else if c == '"' then some (s.turn (.block .basic chars 1))
    else s.read? .basic true chars c

/-- The tokens that have been read when the text is over, last one first. -/
def finish? (s : Lexer) : Option (List Token) :=
  match s.focus with
  | .ready | .comment => some s.tokens
  | .word chars | .dated chars => some (s.addWord chars).tokens
  | .left => some (s.add .left).tokens
  | .right => some (s.add .right).tokens
  | .opening _ true => some (s.add (.text "")).tokens
  | .block style chars quotes =>
    if 3 ≤ quotes then some (s.addBlock style chars quotes).tokens else none
  | _ => none

end Lexer

/-- Drops the carriage returns in front of line feeds. There may be no others. -/
def withoutReturns? : List Char → Option (List Char)
  | [] => some []
  | '\r' :: '\n' :: cs => (withoutReturns? cs).map ('\n' :: ·)
  | '\r' :: _ => none
  | c :: cs => (withoutReturns? cs).map (c :: ·)

/-- A text without the mark of the byte order at its beginning. -/
def withoutMark : List Char → List Char
  | '\ufeff' :: cs => cs
  | cs => cs

/-- The tokens of a text. -/
def tokens? (text : String) : Option (List Token) := do
  let chars ← withoutReturns? (withoutMark text.toList)
  let lexer ← chars.foldlM Lexer.step? {}
  return (← lexer.finish?).reverse

end Toml

end Settings

end Highlighting
