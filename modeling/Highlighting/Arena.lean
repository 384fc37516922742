import Highlighting.Tree

/-!
# Arenas

The work of a parser is written down in three arrays: the tokens in source order, beside each token
the production around it, and the nodes of the tree in the order in which they are begun. A node
goes by its position in the array. It records its parent and its children by their positions, and
the tokens beneath it by theirs. Each of these is written on its own, and some of them later than
others: a production joins the children of its parent when it begins, and learns its tokens when it
ends.

`Arena.trees` reads the nodes as trees. A node comes before its children, so the nodes are read from
the last one to the first, and the trees of the children are there when the tree of their parent is
put together.

## Main definitions

* `Node`, `Arena`: the nodes, and the three arrays
* `Arena.parentAt?`, `Arena.childrenAt` and the like: what is recorded of a position
* `Arena.addToken`, `Arena.addNode`, `Arena.addTerminal`, `Arena.endNode`: how the arrays are
  written
* `Arena.trees`, `Arena.stream`: the trees and the tokens that have been written down
* `RootedArena`: an arena with the position of its root
-/

namespace Highlighting

/-- What a node is. -/
inductive NodeKind where
  /-- A production. -/
  | rule (rule : RuleId)
  /-- A visible token, by its position among the tokens. -/
  | terminal (index : Nat)
  deriving DecidableEq, Repr, Inhabited

/-- A node. Other nodes go by their positions among the nodes. -/
structure Node where
  /-- What the node is. -/
  kind : NodeKind
  /-- The node right above. -/
  parent : Option Nat
  /-- The nodes right below, in source order. -/
  children : Array Nat
  /-- The positions of the first and the last token beneath the node. -/
  tokens : Option (Nat × Nat)
  deriving DecidableEq, Repr, Inhabited

namespace Node

/-- A node without children. Only a token has tokens beneath it from the start. -/
def begin (kind : NodeKind) (parent : Option Nat) : Node where
  kind := kind
  parent := parent
  children := #[]
  tokens := match kind with
    | .rule _ => none
    | .terminal i => some (i, i)

/-- The node with another child. -/
def addChild (node : Node) (n : Nat) : Node :=
  { node with children := node.children.push n }

/-- The production, unless the node is a token. -/
def rule? (node : Node) : Option RuleId :=
  match node.kind with
  | .rule r => some r
  | .terminal _ => none

/-- The position of the token, unless the node is a production. -/
def token? (node : Node) : Option Nat :=
  match node.kind with
  | .rule _ => none
  | .terminal i => some i

end Node

/-- The tokens and nodes of a parse. -/
structure Arena where
  /-- All tokens in source order, hidden ones included. -/
  tokens : Array Token := #[]
  /-- The innermost production around each token; a hidden token has none. -/
  tokenParents : Array (Option RuleId) := #[]
  /-- The nodes in the order in which they were begun. -/
  nodes : Array Node := #[]
  deriving DecidableEq, Repr, Inhabited

namespace Arena

/-! ### What is recorded -/

/-- The parent of the node at a position. -/
def parentAt? (a : Arena) (n : Nat) : Option Nat :=
  a.nodes[n]?.bind (·.parent)

/-- The production at a position, unless the node is a token. -/
def ruleAt? (a : Arena) (n : Nat) : Option RuleId :=
  a.nodes[n]?.bind (·.rule?)

/-- The token of the node at a position, unless the node is a production. -/
def tokenAt? (a : Arena) (n : Nat) : Option Nat :=
  a.nodes[n]?.bind (·.token?)

/-- The children of the node at a position. -/
def childrenAt (a : Arena) (n : Nat) : Array Nat :=
  (a.nodes[n]?.map (·.children)).getD #[]

/-- The first and the last token beneath the node at a position. -/
def rangeAt? (a : Arena) (n : Nat) : Option (Nat × Nat) :=
  a.nodes[n]?.bind (·.tokens)

/-- The innermost production around the token at a position. -/
def parentRuleOf? (a : Arena) (i : Nat) : Option RuleId :=
  a.tokenParents[i]?.join

/-- The first and the last token beneath some nodes: the first one of the first node that has any,
and the last one of the last. -/
def rangeOver? (a : Arena) (ns : Array Nat) : Option (Nat × Nat) :=
  match ns.findSome? a.rangeAt?, ns.findSomeRev? a.rangeAt? with
  | some first, some last => some (first.1, last.2)
  | _, _ => none

/-- The characters from one token to another. -/
def spanOver? (a : Arena) (range : Nat × Nat) : Option Span := do
  let first ← a.tokens[range.1]?
  let last ← a.tokens[range.2]?
  return ⟨first.span.start, last.span.stop⟩

/-! ### Writing -/

/-- Adds a token and the production around it. -/
def addToken (a : Arena) (token : Token) (parent : Option RuleId) : Arena :=
  { a with tokens := a.tokens.push token, tokenParents := a.tokenParents.push parent }

/-- Adds a node, also to the children of its parent. -/
def addNode (a : Arena) (kind : NodeKind) (parent : Option Nat) : Arena :=
  let n := a.nodes.size
  let nodes := a.nodes.push (.begin kind parent)
  { a with nodes := parent.elim nodes fun m => nodes.modify m (·.addChild n) }

/-- Adds a visible token, with a node for it beneath a production. -/
def addTerminal (a : Arena) (token : Token) (parent : Nat) : Arena :=
  let i := a.tokens.size
  let rule := a.ruleAt? parent
  (a.addToken token rule).addNode (.terminal i) (some parent)

/-- Records which tokens lie beneath a production that ends. -/
def endNode (a : Arena) (n : Nat) : Arena :=
  let range := a.rangeOver? (a.childrenAt n)
  { a with nodes := a.nodes.modify n fun node => { node with tokens := range } }

/-! ### Reading -/

/-- All tokens, each with the production around it. -/
def stream (a : Arena) : List StreamToken :=
  List.zipWith StreamToken.mk a.tokens.toList a.tokenParents.toList

/-- The tree of a node, given the trees of the nodes behind it. -/
def tree? (a : Arena) (n : Nat) (node : Node) (later : Array (Option Tree)) : Option Tree :=
  match node.kind with
  | .rule r =>
    let children := node.children.toList.filterMap fun c => later[c]?.join
    some (.node n r (node.tokens.bind a.spanOver?) children)
  | .terminal i => a.tokens[i]?.map (.leaf n)

/-- The trees of all nodes, by position. -/
def trees (a : Arena) : Array (Option Tree) :=
  a.nodes.size.foldRev (fun n _ later => later.setIfInBounds n (a.tree? n a.nodes[n] later))
    (Array.replicate a.nodes.size none)

end Arena

/-- The tokens and nodes of a parse that is complete. -/
structure RootedArena extends Arena where
  /-- The position of the outermost production. -/
  root : Nat
  deriving DecidableEq, Repr, Inhabited

end Highlighting
