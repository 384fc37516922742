import Highlighting.Highlight
import Highlighting.Json.Decode

/-!
# Highlights in data files

The JSON form of token records and highlights. The kind of the end of a file is written `-1`, a
missing production is left out, and the colour of a category is written for the eye only: it is
not read back.

## Main definitions

* `Category.toJson`, `TokenRecord.toJson`, `Highlight.toJson`
* `Category.ofJson?`, `TokenRecord.ofJson?`, `Highlight.ofJson?`
-/

namespace Highlighting

/-- A category is written by its ordinal. -/
def Category.toJson (c : Category) : Json :=
  .int c.ordinal

/-- A category from its ordinal. -/
def Category.ofJson? (v : Json) : Option Category :=
  v.int?.bind Category.ofOrdinal?

/-- A token kind is written by its number, and the end of a file as `-1`. -/
def TokenKind.toJson (kind : TokenKind) : Json :=
  if kind = endOfFile then .int (-1) else .int kind.toNat

/-- A number of 16 bits. -/
def uint16? : Int → Option UInt16
  | .ofNat n => if n < 65536 then some n.toUInt16 else none
  | .negSucc _ => none

/-- A token kind from its number. Every negative number stands for the end of a file. -/
def TokenKind.ofJson? (v : Json) : Option TokenKind :=
  v.int?.bind fun n => if n < 0 then some endOfFile else uint16? n

/-- A production from its number. A number that belongs to no production stands for none. -/
def RuleId.ofJson? (v : Json) : Option (Option RuleId) :=
  (v.nullable? Json.int?).map (·.bind uint16?)

namespace TokenRecord

/-- A token record as an object. -/
def toJson (r : TokenRecord) : Json :=
  .obj
    ([("startIndex", .int r.start), ("stopIndex", .int r.stop), ("text", .str r.text),
        ("tokenRule", TokenKind.toJson r.kind)]
      ++ (r.parent.map fun rule => ("parentRule", Json.int rule.toNat)).toList
      ++ [("symbolicName", .str r.name)])

/-- A token record from its fields; the last two may be missing. -/
def ofJson? (v : Json) : Option TokenRecord := do
  let [start, stop, text, kind, parent, name] ←
      v.fields? ["startIndex", "stopIndex", "text", "tokenRule", "parentRule", "symbolicName"]
    | none
  some
    { start := ← start.bind Json.int?
      stop := ← stop.bind Json.int?
      text := ← text.bind Json.str?
      kind := ← kind.bind TokenKind.ofJson?
      parent := ← parent.elim (some none) RuleId.ofJson?
      name := ← name.elim (some "") Json.str? }

end TokenRecord

namespace Highlight

/-- A highlight as an object. -/
def toJson (h : Highlight) : Json :=
  .obj
    ([("eta", h.record.toJson), ("highlightCode", h.category.toJson)]
      ++ (h.category.color.map fun color => ("highlightColor", Json.str color)).toList)

/-- A highlight from its fields. -/
def ofJson? (v : Json) : Option Highlight := do
  let [record, category] ← v.fields? ["eta", "highlightCode"] | none
  some
    { record := ← record.bind TokenRecord.ofJson?
      category := ← category.bind Category.ofJson? }

end Highlight

end Highlighting
