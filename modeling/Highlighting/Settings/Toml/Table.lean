import Highlighting.Settings.Value

/-!
# Tables of settings files

The table that a settings file builds up, with what has to be remembered about its parts until the
file is over. A name gets a value only once. A table that was only passed on the way to another one
may still get its header, and one that grew from names with dots goes on growing from such names
and from nothing else.

## Main definitions

* `Settings.Toml.Part`: a part of a table that is being built up
* `Settings.Toml.Table.within?`: a change beneath some names
* `Settings.Toml.Table.define?`, `Settings.Toml.Table.declare?`, `Settings.Toml.Table.append?`: what
  the lines of a settings file do
* `Settings.Toml.Table.toValue`: the finished table
-/

namespace Highlighting

namespace Settings

namespace Toml

/-- How a table came about. -/
inductive Origin where
  /-- By a header of its own. -/
  | header
  /-- On the way to the table of another header. -/
  | passed
  /-- On the way along names with dots. -/
  | dotted
  deriving DecidableEq, Repr, Inhabited

/-- A part of a table that is being built up. -/
inductive Part where
  /-- A value, to which nothing can be added. -/
  | value (v : Value)
  /-- A table. -/
  | table (origin : Origin) (parts : List (String × Part))
  /-- An array of tables. Only the last one may change. -/
  | tables (earlier : List Value) (last : List (String × Part))
  deriving Inhabited

/-- The parts of a table that is being built up, with their names. -/
abbrev Table := List (String × Part)

mutual

/-- The value of a part. -/
def Part.toValue : Part → Value
  | value v => v
  | table _ parts => .table (Part.toEntries parts)
  | tables earlier last => .arr (earlier ++ [.table (Part.toEntries last)])

/-- The values of some parts. -/
def Part.toEntries : List (String × Part) → List (String × Value)
  | [] => []
  | (name, part) :: parts => (name, part.toValue) :: Part.toEntries parts

end

namespace Table

/-- The finished table. -/
def toValue (t : Table) : Value :=
  .table (Part.toEntries t)

/-- The part with a name. -/
def get? (t : Table) (name : String) : Option Part :=
  (t.find? fun e => e.1 == name).map (·.2)

/-- Gives a part to a name, in place of the one it has. -/
def put (t : Table) (name : String) (part : Part) : Table :=
  if (t.get? name).isSome then t.map fun e => if e.1 == name then (name, part) else e
  else t ++ [(name, part)]

/-- Changes the table beneath some names. Tables that are missing on the way are `fresh`; in an
array of tables the way leads into the last one. Names with dots lead into no table that has a
header. -/
def within? (fresh : Origin) (path : List String) (f : Origin → Table → Option Table)
    (origin : Origin) (t : Table) : Option Table :=
  match path with
  | [] => f origin t
  | name :: path =>
    match t.get? name with
    | none => (within? fresh path f fresh []).map fun inner => t.put name (.table fresh inner)
    | some (.value _) => none
    | some (.tables earlier last) =>
      (within? fresh path f .header last).map fun inner => t.put name (.tables earlier inner)
    | some (.table origin parts) =>
      if fresh = .dotted && origin = .header then none
      else (within? fresh path f origin parts).map fun inner => t.put name (.table origin inner)

/-- Gives a value to a name beneath names with dots. The name has to be new. -/
def define? (path : List String) (name : String) (v : Value) : Table → Option Table :=
  within? .dotted path
    (fun origin t =>
      if (t.get? name).isSome || (!path.isEmpty && origin ≠ .dotted) then none
      else some (t.put name (.value v)))
    .header

/-- Takes a header. The table must not have one yet. -/
def declare? (path : List String) (name : String) : Table → Option Table :=
  within? .passed path
    (fun _ t =>
      match t.get? name with
      | none => some (t.put name (.table .header []))
      | some (.table .passed parts) => some (t.put name (.table .header parts))
      | _ => none)
    .header

/-- Takes the header of another table of an array. -/
def append? (path : List String) (name : String) : Table → Option Table :=
  within? .passed path
    (fun _ t =>
      match t.get? name with
      | none => some (t.put name (.tables [] []))
      | some (.tables earlier last) => some (t.put name (.tables (earlier ++ [toValue last]) []))
      | _ => none)
    .header

/-- Changes the table that the last header stands for. -/
def beneath? (header : List String) (f : Table → Option Table) : Table → Option Table :=
  within? .passed header (fun _ t => f t) .header

end Table

end Toml

end Settings

end Highlighting
