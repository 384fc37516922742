import Highlighting.Digest
import Highlighting.Highlight.Json
import Highlighting.Json.Reader
import Highlighting.Text.Blank

/-!
# Oracle files

An oracle record pairs a source text with its reference highlights, and may say where the source
comes from. A file of records is either one JSON array or has a record on each line. What is not a
record is passed over, so that a damaged record never costs another one; only an array that is not
JSON at all is an error.

The two layouts are decoded by different rules. A line is decoded as it is written, and a field
that is given twice spoils it. The items of an array are brought into canonical form first, where
the last of several members with one name counts.

## Main definitions

* `Oracle.Record`, `Oracle.Origin`
* `Oracle.Record.toJson`, `Oracle.Record.ofJson?`
* `Oracle.Record.id`: the digest of the source, under which other files refer to a record
* `Oracle.parse`: the records of a file
-/

namespace Highlighting

namespace Oracle

/-- Where a source text comes from. -/
structure Origin where
  /-- An address, if there is one. -/
  url : Option String
  deriving DecidableEq, Repr, Inhabited

/-- A source text with its reference highlights. -/
structure Record where
  /-- The source text. -/
  source : String
  /-- Where it comes from, if that is known. -/
  origin : Option Origin
  /-- The reference. -/
  highlights : List Highlight
  deriving DecidableEq, Repr, Inhabited

namespace Record

/-- The name of the record in other files. -/
def id (r : Record) : String :=
  Digest.ofText r.source

/-- The address of the source, if there is one. -/
def url? (r : Record) : Option String :=
  r.origin.bind Origin.url

/-- Whether there is nothing to score: no source or no reference. -/
def isDegenerate (r : Record) : Bool :=
  r.source.isEmpty || r.highlights.isEmpty

end Record

/-! ### Records as JSON -/

/-- An origin as an object. -/
def Origin.toJson (o : Origin) : Json :=
  .obj [("url", o.url.elim .null .str)]

/-- An origin from its fields. -/
def Origin.ofJson? (v : Json) : Option Origin := do
  let [url] ← v.fields? ["url"] | none
  some ⟨← url.elim (some none) (Json.nullable? Json.str?)⟩

namespace Record

/-- A record as an object. The source and its origin are an object of their own. -/
def toJson (r : Record) : Json :=
  .obj
    [("source", .obj ([("source", .str r.source)]
        ++ (r.origin.map fun o => ("file", o.toJson)).toList)),
      ("hetas", .arr (r.highlights.map Highlight.toJson))]

/-- The source and its origin. -/
def sourceOfJson? (v : Json) : Option (String × Option Origin) := do
  let [source, origin] ← v.fields? ["source", "file"] | none
  some (← source.bind Json.str?, ← origin.elim (some none) (Json.nullable? Origin.ofJson?))

/-- A record from its fields. -/
def ofJson? (v : Json) : Option Record := do
  let [source, highlights] ← v.fields? ["source", "hetas"] | none
  let (text, origin) ← source.bind sourceOfJson?
  some ⟨text, origin, ← highlights.bind (Json.list? Highlight.ofJson?)⟩

end Record

/-! ### Files of records -/

/-- Why a file cannot be read: it is an array that is not JSON, which shows on some line. -/
structure Error where
  /-- The line, counting from one. -/
  line : Nat
  deriving DecidableEq, Repr, Inhabited

/-- The wording of an error. -/
def Error.message (e : Error) : String :=
  s!"oracle line {e.line}: not a JSON array"

/-- Whether a file is an array rather than a record on each line. -/
def isArray (text : String) : Bool :=
  (Text.trimStart text.toList).head? == some '['

/-- The records among the items of an array. -/
def ofItems (items : List Json) : List Record :=
  items.filterMap fun v => (v.canonical? Json.maxDepth).bind Record.ofJson?

/-- The record on a line, if there is one. -/
def ofLine? (line : List Char) : Option Record :=
  (Json.read? (String.ofList line)).bind Record.ofJson?

/-- The records of a text with a record on each line. A carriage return at the end of a line is
blank space to a decoder. -/
def ofLines (text : String) : List Record :=
  (text.toList.splitOn '\n').filterMap ofLine?

/-- The records of a file, in order. -/
def parse (text : String) : Except Error (List Record) :=
  if isArray text then
    match Json.readStrict text with
    | .error line => .error ⟨line⟩
    | .ok v => .ok (ofItems (v.items?.getD []))
  else
    .ok (ofLines text)

end Oracle

end Highlighting
