import Highlighting.Text.Quoted
import Highlighting.Tree

/-!
# Labels of nodes

How a node is named in reports: by its production or the text of its token, and by the number under
which it was created, which tells it apart from every other node of its tree.
-/

namespace Highlighting

namespace Tree

/-- The name of a node in reports. -/
def label : Tree → String
  | leaf n t => "Terminal(" ++ Text.quoted t.text ++ s!") #{n}"
  | node n r _ _ => s!"Rule({r.toNat}) #{n}"

/-- The node of a tree with a given number. -/
def withId? (t : Tree) (n : Nat) : Option Tree :=
  (t :: t.descendants).find? fun u => u.id == n

end Tree

end Highlighting
