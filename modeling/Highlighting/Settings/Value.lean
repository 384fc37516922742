/-!
# Values of settings

Settings are a tree of tables, arrays and plain values. A table can be laid over another one, name
by name, and a single place in the tree can be set. Both make room for what they bring: a plain
value that stands where a table is needed gives way to a table. Both write names in lower case, so
that names which differ in letter case only are one name.

## Main definitions

* `Settings.Value`
* `Settings.Value.overlay`: a value laid over another one
* `Settings.Step`, `Settings.Value.set`: a value with one place set
-/

namespace Highlighting

namespace Settings

/-- A value of a setting. -/
inductive Value where
  /-- Nothing. -/
  | nil
  | bool (b : Bool)
  | int (n : Int)
  | float (x : Float)
  | str (s : String)
  | arr (items : List Value)
  | table (entries : List (String × Value))
  deriving Inhabited

namespace Value

/-- The entries of a table. Other values have none. -/
def entries : Value → List (String × Value)
  | table entries => entries
  | _ => []

/-- The items of an array. Other values have none. -/
def items : Value → List Value
  | arr items => items
  | _ => []

/-- The entry of a table with a name. -/
def get? (v : Value) (name : String) : Option Value :=
  (v.entries.find? fun e => e.1 == name).map (·.2)

/-- Changes the entry with a name, which is added at the end if there is none. -/
def alter (name : String) (f : Value → Value) : List (String × Value) → List (String × Value)
  | [] => [(name, f nil)]
  | e :: es => if e.1 == name then (name, f e.2) :: es else e :: alter name f es

mutual

/-- A value laid over another one. A table is laid over entry by entry, and any other value takes
the place of what was there. -/
def overlay (base : Value) : Value → Value
  | table entries =>
    overlayAll (match base with | nil => table [] | base => base) entries
  | v => v

/-- Entries laid over a value. -/
def overlayAll (base : Value) : List (String × Value) → Value
  | [] => base
  | (name, v) :: es =>
    overlayAll (table (alter name.toLower (fun old => overlay old v) base.entries)) es

end

end Value

/-! ### Places -/

/-- A step from a value to a part of it. -/
inductive Step where
  /-- To the entry of a table. -/
  | name (s : String)
  /-- To the item of an array; a negative number counts from the end. -/
  | index (n : Int)
  deriving DecidableEq, Repr, Inhabited

namespace Value

/-- The position that an index means in an array. -/
def position (length : Nat) : Int → Nat
  | .ofNat n => n
  | .negSucc n => length - (n + 1)

/-- Changes the item at a position. Missing items before it are nothing. -/
def alterAt (n : Nat) (f : Value → Value) (items : List Value) : List Value :=
  (items ++ List.replicate (n + 1 - items.length) nil).modify n f

/-- A value with another one laid over the place at the end of some steps. -/
def set (v : Value) (path : List Step) (new : Value) : Value :=
  match path with
  | [] => v.overlay new
  | .name s :: path => table (alter s.toLower (fun old => old.set path new) v.entries)
  | .index n :: path =>
    arr (alterAt (position v.items.length n) (fun old => old.set path new) v.items)

end Value

end Settings

end Highlighting
