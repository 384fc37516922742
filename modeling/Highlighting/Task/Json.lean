import Highlighting.Json.Decode
import Highlighting.Task

/-!
# Tasks in data files

A task is written by its code.

## Main definitions

* `Task.toJson`, `Task.ofJson?`
-/

namespace Highlighting

namespace Task

/-- A task is written by its code. -/
def toJson (t : Task) : Json :=
  .int t.code

/-- A task from its code. -/
def ofJson? (v : Json) : Option Task :=
  (v.nat? maxCode).bind ofCode?

end Task

end Highlighting
