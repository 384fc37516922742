import Std.Data.TreeMap

/-!
# JSON values

Data files are JSON texts. `Json` is what such a text says, member by member: an object keeps its
members in the order in which they are written, repeated names included.

Some well-formed texts have no reading, such as a number beyond the largest double or a string
with half of a surrogate pair. They matter because a decoder may pass over members that it does
not know, and passing over needs no reading; `Json.unreadable` stands for them.

## Main definitions

* `Json`
* `Json.canonical?`: the value with the members of objects sorted by name, the last of several
  with the same name kept, and nothing unreadable, within a limit of nesting
-/

namespace Highlighting

/-- A JSON value as it is written. -/
inductive Json where
  | null
  | bool (b : Bool)
  /-- A number without fraction and exponent that fits 64 bits, signed or unsigned. -/
  | int (n : Int)
  /-- Any other number. -/
  | float (x : Float)
  | str (s : String)
  | arr (items : List Json)
  | obj (members : List (String × Json))
  /-- A value that can be passed over but not read: a number that is too large, a string that is
  no sequence of characters, or an object with such a name. -/
  | unreadable
  deriving Inhabited

namespace Json

/-- The deepest nesting of arrays and objects that is read. -/
def maxDepth : Nat := 127

/-- The members of an object sorted by name. Of several members with the same name the last one
counts. -/
def sortMembers (members : List (String × Json)) : List (String × Json) :=
  (members.foldl (fun sorted m => sorted.insert m.1 m.2) (∅ : Std.TreeMap String Json)).toList

/-- The value with the members of its objects sorted by name and the last of several with the same
name kept. There is none if something in it is unreadable or if it nests arrays and objects more
than `depth` times. -/
def canonical? : Nat → Json → Option Json
  | 0, .arr _ | 0, .obj _ | _, .unreadable => none
  | depth + 1, .arr items => (items.mapM (canonical? depth)).map .arr
  | depth + 1, .obj members =>
    (members.mapM fun m => (canonical? depth m.2).map (m.1, ·)).map fun members =>
      .obj (sortMembers members)
  | _, v => some v

end Json

end Highlighting
