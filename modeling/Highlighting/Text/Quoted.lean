import Highlighting.Text.GraphemeExtend
import Highlighting.Text.Unprintable

/-!
# Quoted text

How a piece of source text is shown inside a message: between double quotes, on one line, with
every character that would not be legible written as an escape.

## Main definitions

* `Text.isMerging`, `Text.isInvisible`: the characters that are not legible by themselves
* `Text.escaped`: one character as it stands between the quotes
* `Text.quoted`: a whole text
-/

namespace Highlighting

namespace Text

/-- A number in lower-case hexadecimal, without leading zeros. -/
def hex (n : Nat) : String :=
  String.ofList (Nat.toDigits 16 n)

/-- Whether a character would merge with the one before it. The two half-width sound marks extend
the letter before them, but each of them has a cell of its own. -/
def isMerging (c : Char) : Bool :=
  isGraphemeExtend c && c != '\uff9e' && c != '\uff9f'

/-- Whether nothing would be seen of a character. The fillers of the Hangul script count as letters
and are drawn as nothing. -/
def isInvisible (c : Char) : Bool :=
  isUnprintable c || ['\u115f', '\u1160', '\u3164', '\uffa0'].contains c

/-- A character as it stands between the quotes. The four blanks with an escape of their own,
the backslash and the double quote take a backslash; what cannot be seen, or would merge with its
neighbour, is written by its number. -/
def escaped (c : Char) : String :=
  match c with
  | '\x00' => "\\0"
  | '\t' => "\\t"
  | '\r' => "\\r"
  | '\n' => "\\n"
  | '\\' => "\\\\"
  | '"' => "\\\""
  | _ =>
    if ' ' ≤ c && c ≤ '~' then c.toString
    else if isMerging c || isInvisible c then "\\u\x7b" ++ hex c.toNat ++ "\x7d"
    else c.toString

/-- A text between double quotes, every character escaped where it has to be. -/
def quoted (s : String) : String :=
  "\"" ++ String.join (s.toList.map escaped) ++ "\""

end Text

end Highlighting
