import Highlighting.Cells

/-!
# Highlighted source as HTML

Consecutive characters of the same colour share an element; characters without a colour stand
bare. The characters of an element are held back until one of another colour comes along, or the
source ends. Five characters that have a meaning in HTML are written as entities, one kind after the
other; the ampersand goes first, because every entity brings one of its own.

## Main definitions

* `Html.escape`: a text with its entities
* `Html.Writer`: the text so far, and the characters that are held back
* `Html.render`: the whole text
-/

namespace Highlighting

namespace Html

/-! ### Entities -/

/-- The characters that are written as entities, in the order in which they are replaced. -/
def entities : List (Char × String) :=
  [('&', "&amp;"), ('<', "&lt;"), ('>', "&gt;"), ('"', "&quot;"), ('\'', "&#39;")]

/-- A text with another text in place of each occurrence of a character. -/
def substitute (text : String) (c : Char) (replacement : String) : String :=
  String.join (text.toList.map fun d => if d = c then replacement else d.toString)

/-- A text with its entities. -/
def escape (text : String) : String :=
  entities.foldl (fun text x => substitute text x.1 x.2) text

/-! ### Pieces of one colour -/

/-- A piece of one colour. -/
def renderRun (text : String) (color : Option String) : String :=
  match color with
  | none => escape text
  | some color => s!"<span style=\"color:{color}\">" ++ escape text ++ "</span>"

/-- What has been written of a source, and the piece that has not ended yet. -/
structure Writer where
  /-- The text so far. -/
  output : String := "<pre>"
  /-- The characters of the last piece. -/
  run : String := ""
  /-- The colour of the last piece. -/
  color : Option String := none
  deriving Repr, Inhabited

namespace Writer

/-- Writes the last piece, if there is one. -/
def flush (w : Writer) : Writer :=
  if w.run.isEmpty then w else { w with output := w.output ++ renderRun w.run w.color, run := "" }

/-- The next character. If its colour is another one, the last piece has ended. -/
def add (w : Writer) (x : Char × Option String) : Writer :=
  let w := if x.2 != w.color then w.flush else w
  { w with run := w.run.push x.1, color := x.2 }

end Writer

/-- Each character of a source with its colour. -/
def colored (source : List Char) (cells : Cells) : List (Char × Option String) :=
  source.zipIdx.map fun (c, n) => (c, (cells.get? n).bind Category.color)

/-- A source with its categories. Characters past the end of the cells have no colour. -/
def render (source : String) (cells : Cells) : String :=
  ((colored source.toList cells).foldl Writer.add {}).flush.output ++ "</pre>"

end Html

end Highlighting
