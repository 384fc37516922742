import Highlighting.Json

/-!
# Decoding JSON values

A record is an object whose members are named after its fields. Members with other names are passed
over, and a field that is given twice is an error. A record may also be an array with the fields
in order, of which the last ones may be missing. What a missing field means is up to the record.

## Main definitions

* `Json.int?`, `Json.str?`, `Json.list?` and the like: values of one sort
* `Json.fields?`: the fields of a record
-/

namespace Highlighting

namespace Json

/-- The least integer of 64 bits. -/
def minInt : Int := -Int.pow 2 63

/-- The largest integer of 64 bits. -/
def maxInt : Int := Int.pow 2 63 - 1

/-- An integer of 64 bits with a sign. -/
def int? : Json → Option Int
  | .int n => if minInt ≤ n && n ≤ maxInt then some n else none
  | _ => none

/-- An integer between zero and `max`. -/
def nat? (max : Nat) : Json → Option Nat
  | .int (.ofNat n) => if n ≤ max then some n else none
  | _ => none

/-- A string. -/
def str? : Json → Option String
  | .str s => some s
  | _ => none

/-- The items of an array. -/
def items? : Json → Option (List Json)
  | .arr items => some items
  | _ => none

/-- An array all of whose items can be decoded. -/
def list? {α : Type} (decode : Json → Option α) (v : Json) : Option (List α) :=
  v.items?.bind (·.mapM decode)

/-- A value that may be `null`. -/
def nullable? {α : Type} (decode : Json → Option α) : Json → Option (Option α)
  | .null => some none
  | v => (decode v).map some

/-- One of several names: the name itself, or an object whose only member has that name and says
`null`. -/
def name? : Json → Option String
  | .str s => some s
  | .obj [(name, .null)] => some name
  | _ => none

/-- The field with a name, unless it is given twice. -/
def field? (members : List (String × Json)) (name : String) : Option (Option Json) :=
  match members.filter (·.1 == name) with
  | [] => some none
  | [m] => some (some m.2)
  | _ => none

/-- The fields of a record with the given names. A field that is missing is `none`. -/
def fields? (names : List String) : Json → Option (List (Option Json))
  | .obj members => names.mapM (field? members)
  | .arr items =>
    if items.length ≤ names.length then
      some (items.map some ++ List.replicate (names.length - items.length) none)
    else
      none
  | _ => none

end Json

end Highlighting
