import Highlighting.Builder

/-!
# Parses from parser events

The events of a parser are written down in an arena, and a `Parse` is what the arena says: the
syntax tree together with the stream of all tokens. Everything further on works with the tree.

## Main definitions

* `Parse`, and `Parse.ofArena`, which reads one off an arena
* `Parse.ofEvents`: the parse that a list of events describes
-/

namespace Highlighting

/-- A parsed file. -/
structure Parse where
  /-- The syntax tree over the visible tokens. -/
  root : Tree
  /-- All tokens in source order, hidden ones included. -/
  stream : List StreamToken
  deriving Inhabited

namespace Parse

/-- The number of nodes of the tree. -/
def nodeCount (p : Parse) : Nat :=
  p.root.descendants.length + 1

/-- The innermost production around the token at a position of the stream. -/
def parentOf? (p : Parse) (n : Nat) : Option RuleId :=
  p.stream[n]?.bind (·.parent)

/-- The tree at the root of an arena, and its tokens. -/
def ofArena (a : RootedArena) : Parse where
  root := (a.trees[a.root]?.join).getD default
  stream := a.stream

/-- The parse of a source that a list of events describes, or the first reason why it describes
none. -/
def ofEvents (source : String) (events : List Event) : Except Error Parse :=
  (Builder.build source events).map ofArena

end Parse

end Highlighting
