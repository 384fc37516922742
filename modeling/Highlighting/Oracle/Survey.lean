import Highlighting.Oracle
import Std.Data.HashSet

/-!
# Surveys of oracle files

How large the records of a file are, and which sources it holds.

## Main definitions

* `Oracle.lineCount`: lines of a text, where `\n`, `\r\n` and `\r` all end a line
* `Oracle.Size`, `Oracle.sizes`: the size of every record, the one with the most tokens first
* `Oracle.Entry`, `Oracle.index`: the distinct sources, each where it occurs first
-/

namespace Highlighting

namespace Oracle

/-! ### Sizes -/

/-- The number of line breaks in a text, added to a number. A carriage return and the line feed
after it are one break. -/
def breaksFrom (n : Nat) : List Char → Nat
  | [] => n
  | '\r' :: '\n' :: cs => breaksFrom (n + 1) cs
  | c :: cs => breaksFrom (if c == '\n' || c == '\r' then n + 1 else n) cs

/-- The number of lines of a text. A break at its end opens another, empty line. -/
def lineCount (cs : List Char) : Nat :=
  breaksFrom 1 cs

/-- How large a record is. -/
structure Size where
  /-- The name of the record. -/
  id : String
  /-- Reference tokens. -/
  tokens : Nat
  /-- Characters of the source. -/
  chars : Nat
  /-- Blanks among the characters. -/
  blanks : Nat
  /-- Lines of the source. -/
  lines : Nat
  deriving DecidableEq, Repr, Inhabited

namespace Size

/-- The size of a record. -/
def ofRecord (r : Record) : Size :=
  { id := r.id
    tokens := r.highlights.length
    chars := r.source.length
    blanks := r.source.toList.countP Text.isBlank
    lines := lineCount r.source.toList }

/-- A size as an object. -/
def toJson (s : Size) : Json :=
  .obj
    [("fileId", .str s.id), ("ntoks", .int s.tokens), ("nchars", .int s.chars),
      ("whitespace", .int s.blanks), ("lines", .int s.lines)]

end Size

/-- The sizes of records, the one with the most tokens first. Records with equally many tokens
keep their order. -/
def sizes (records : List Record) : List Size :=
  (records.map Size.ofRecord).mergeSort fun a b => b.tokens ≤ a.tokens

/-! ### Distinct sources -/

/-- A source of an index. -/
structure Entry where
  /-- The name of the record. -/
  id : String
  /-- Where the source comes from. -/
  url : String
  /-- The source text. -/
  source : String
  deriving DecidableEq, Repr, Inhabited

namespace Entry

/-- The entry of a record under a name. -/
def ofRecord (id : String) (r : Record) : Entry :=
  ⟨id, r.url?.getD "Unavailable", r.source⟩

/-- An entry as an object. -/
def toJson (e : Entry) : Json :=
  .obj [("id", .str e.id), ("url", .str e.url), ("source", .str e.source)]

end Entry

/-- The entries of the records whose names have not been seen. -/
def indexFrom (name : String → String) (seen : Std.HashSet String) : List Record → List Entry
  | [] => []
  | r :: rs =>
    let id := name r.source
    if seen.contains id then indexFrom name seen rs
    else Entry.ofRecord id r :: indexFrom name (seen.insert id) rs

/-- The distinct sources of records under some naming of sources. The first record with a name
counts. -/
def indexBy (name : String → String) (records : List Record) : List Entry :=
  indexFrom name ∅ records

/-- The distinct sources of records. -/
def index (records : List Record) : List Entry :=
  indexBy Digest.ofText records

end Oracle

end Highlighting
