import Highlighting.Override
import Highlighting.Tree.Walk

/-!
# Rule catalogs

A catalog holds the grammar rules of a language: for each production that a walk leaves, it says
which descendants are marked with what. An engine applies a catalog to whole trees. It collects
the marks of a walk in a set of pending overrides, which is emptied before and after each walk of
its own, so nothing that was recorded for one file can reach the next. It can also be driven as a
plain listener, and then the marks of several trees pile up.

## Main definitions

* `Catalog`
* `Engine`, with `Engine.walk`, `Engine.listen` and `Engine.reset`
-/

namespace Highlighting

/-- The grammar rules of a language. -/
structure Catalog where
  /-- The name of the language. -/
  name : String
  /-- What is marked, in order, when a walk leaves the production at a site. -/
  marks : Site → List Override
  deriving Inhabited

/-- A catalog at work. -/
structure Engine where
  /-- The rules that are applied. -/
  catalog : Catalog
  /-- What has been marked and not yet handed out. -/
  pending : OverrideSet := ∅
  deriving Inhabited

namespace Engine

/-- Discards what has been marked so far. -/
def reset (e : Engine) : Engine :=
  { e with pending := ∅ }

/-- Rules are applied when a production is left. -/
def hear (e : Engine) : Notice → Engine
  | .leave s => { e with pending := e.pending.extend (e.catalog.marks s) }
  | .enter _ | .visit _ => e

/-- Adds the marks of a tree to the pending ones. -/
def listen (e : Engine) (t : Tree) : Engine :=
  (Site.ofRoot t).walk hear e

/-- The overrides of a tree, and the engine with nothing pending. -/
def walk (e : Engine) (t : Tree) : OverrideSet × Engine :=
  let e := e.reset.listen t
  (e.pending, e.reset)

end Engine

end Highlighting
