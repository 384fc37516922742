import Std.Data.TreeMap
import Highlighting.Category
import Highlighting.Tree

/-!
# Overrides

An override gives the token that starts at some offset a category of its own. At most one
override is held for an offset: a new one replaces the old one. Rules are applied to a production
after everything beneath it, so of two rules that mark the same offset the one of the enclosing
production wins.

## Main definitions

* `Override`, and `Override.ofTree?`, which covers what a node covers
* `OverrideSet`: overrides by start offset, with `insert`, `replace`, `extend`, `take`, `get?` and
  `toList`
-/

namespace Highlighting

/-- A category for the text at a span. -/
structure Override where
  /-- The text that is marked. Its start is what identifies the token. -/
  span : Span
  /-- The category it gets. -/
  category : Category
  /-- The production whose rule marked it. -/
  origin : RuleId
  deriving DecidableEq, Repr, Inhabited

/-- The override that covers a node; a node without tokens has none. -/
def Override.ofTree? (t : Tree) (category : Category) (origin : RuleId) : Option Override :=
  t.span.map fun span => ⟨span, category, origin⟩

/-- Overrides, at most one for each start offset. -/
structure OverrideSet where
  /-- The override held for a start offset. -/
  byStart : Std.TreeMap Nat Override

namespace OverrideSet

/-- No overrides. -/
def empty : OverrideSet := ⟨∅⟩

instance : EmptyCollection OverrideSet := ⟨empty⟩

instance : Inhabited OverrideSet := ⟨empty⟩

/-- The override held for a start offset. -/
def get? (s : OverrideSet) (start : Nat) : Option Override :=
  s.byStart[start]?

/-- Adds an override in place of the one held for its start offset. -/
def insert (s : OverrideSet) (o : Override) : OverrideSet :=
  ⟨s.byStart.insert o.span.start o⟩

/-- Adds an override, and hands back the one that it replaces. -/
def replace (s : OverrideSet) (o : Override) : Option Override × OverrideSet :=
  (s.get? o.span.start, s.insert o)

/-- Adds overrides one after the other. -/
def extend (s : OverrideSet) (os : List Override) : OverrideSet :=
  os.foldl insert s

/-- Hands out the overrides, and holds none afterwards. -/
def take (s : OverrideSet) : OverrideSet × OverrideSet :=
  (s, ∅)

/-- The number of overrides held. -/
def size (s : OverrideSet) : Nat :=
  s.byStart.size

/-- Whether no override is held. -/
def isEmpty (s : OverrideSet) : Bool :=
  s.byStart.isEmpty

/-- The overrides held, sorted by start offset. -/
def toList (s : OverrideSet) : List Override :=
  s.byStart.values.mergeSort fun o u => o.span.start ≤ u.span.start

@[simp] theorem get?_empty (start : Nat) : (∅ : OverrideSet).get? start = none := by
  change (∅ : Std.TreeMap Nat Override)[start]? = none
  simp

theorem get?_insert (s : OverrideSet) (o : Override) (start : Nat) :
    (s.insert o).get? start = if o.span.start = start then some o else s.get? start := by
  simp [get?, insert, Std.TreeMap.getElem?_insert]

end OverrideSet

end Highlighting
