import Mathlib.Data.List.Basic
import Mathlib.Data.List.Flatten
import Mathlib.Data.Option.NAry
import Highlighting.Tree

/-!
# The nodes and tokens of a tree

`Tree.descendants` keeps the work that is still to do in a list, and so does everything else that
runs over a whole tree. Statements are easier to make about plain recursion on the children, and
this module supplies it: an induction principle, a fold, and for each of the lists of nodes and
tokens the equation that a recursive definition would have.

A production caches its span when it is built. `Tree.Spanned` says that every cached span of a tree
is the one its children give, and `Tree.Spanned.span_eq` what that amounts to: from the start of the
first token beneath the node to the stop of the last one.

## Main definitions

* `Tree.induction`, `Tree.fold`: recursion on the children
* `Tree.nodes`, `Tree.tokens`: a node and all beneath it, and the tokens among them
* `Tree.visible`: the tokens, each with the production right around it
* `Tree.Spanned`: every cached span is right

## Main results

* `Tree.descendants_eq_flatMap`: descendants are the nodes of the children, in order
* `Tree.Spanned.span_eq`: the span of a node in terms of its tokens
-/

namespace Highlighting

namespace Tree

/-! ### Recursion on the children -/

/-- Induction on a tree, with the statement at hand for every child of a production. -/
theorem induction {P : Tree → Prop} (leaf : ∀ n t, P (.leaf n t))
    (node : ∀ n r s cs, (∀ c ∈ cs, P c) → P (.node n r s cs)) (t : Tree) : P t :=
  @Tree.rec P (fun cs => ∀ c ∈ cs, P c) leaf node (by simp)
    (fun _ _ hc hcs => List.forall_mem_cons.mpr ⟨hc, hcs⟩) t

section Fold

variable {α : Type} (leaf : Nat → Token → α) (node : Nat → RuleId → Option Span → List α → α)

mutual

/-- Replaces every token by a value and every production by a function of the values of its
children. -/
def fold : Tree → α
  | .leaf n t => leaf n t
  | .node n r s cs => node n r s (folds cs)

/-- The values of the trees of a forest. -/
def folds : List Tree → List α
  | [] => []
  | t :: ts => fold t :: folds ts

end

theorem folds_eq_map (ts : List Tree) : folds leaf node ts = ts.map (fold leaf node) := by
  induction ts with
  | nil => simp [folds]
  | cons t ts ih => simp [folds, ih]

theorem fold_leaf (n : Nat) (t : Token) : fold leaf node (.leaf n t) = leaf n t := by
  simp [fold]

theorem fold_node (n : Nat) (r : RuleId) (s : Option Span) (cs : List Tree) :
    fold leaf node (.node n r s cs) = node n r s (cs.map (fold leaf node)) := by
  simp [fold, folds_eq_map]

end Fold

/-! ### Nodes -/

/-- A node and everything beneath it, parents before children. -/
def nodes (t : Tree) : List Tree := t :: t.descendants

theorem preorder_append_found (pending found more : List Tree) :
    preorder pending (found ++ more) = more.reverse ++ preorder pending found := by
  fun_induction preorder pending found with
  | case1 found => simp [preorder]
  | case2 found t rest ih => rw [preorder, ← List.cons_append, ih]

theorem preorder_append (ts us found : List Tree) :
    preorder (ts ++ us) found = preorder ts found ++ preorder us [] := by
  fun_induction preorder ts found with
  | case1 found => simpa using preorder_append_found us [] found
  | case2 found t rest ih => rw [List.cons_append, preorder, ← List.append_assoc, ih]

theorem preorder_eq_flatMap (ts : List Tree) : preorder ts [] = ts.flatMap nodes := by
  induction ts with
  | nil => simp [preorder]
  | cons t ts ih =>
    have hfound : preorder t.children [t] = t :: t.descendants := by
      simpa [descendants] using preorder_append_found t.children [] [t]
    rw [preorder, preorder_append, hfound, ih, List.flatMap_cons, nodes]

/-- **Looking all the way down is recursion.** The descendants of a node are its children, each
followed by its own descendants. -/
theorem descendants_eq_flatMap (t : Tree) : t.descendants = t.children.flatMap nodes :=
  preorder_eq_flatMap t.children

@[simp] theorem nodes_leaf (n : Nat) (t : Token) : (leaf n t).nodes = [leaf n t] := by
  simp [nodes, descendants_eq_flatMap, children]

@[simp] theorem nodes_node (n : Nat) (r : RuleId) (s : Option Span) (cs : List Tree) :
    (node n r s cs).nodes = node n r s cs :: cs.flatMap nodes := by
  simp [nodes, descendants_eq_flatMap, children]

theorem self_mem_nodes (t : Tree) : t ∈ t.nodes := List.mem_cons_self

theorem mem_descendants {t u : Tree} : u ∈ t.descendants ↔ ∃ c ∈ t.children, u ∈ c.nodes := by
  rw [descendants_eq_flatMap, List.mem_flatMap]

theorem mem_nodes {t u : Tree} : u ∈ t.nodes ↔ u = t ∨ ∃ c ∈ t.children, u ∈ c.nodes := by
  rw [nodes, List.mem_cons, mem_descendants]

theorem mem_descendants_of_mem_children {t c : Tree} (h : c ∈ t.children) : c ∈ t.descendants :=
  mem_descendants.mpr ⟨c, h, c.self_mem_nodes⟩

theorem mem_nodes_of_mem_children {t c : Tree} (h : c ∈ t.children) : c ∈ t.nodes :=
  mem_nodes.mpr (.inr ⟨c, h, c.self_mem_nodes⟩)

theorem nodes_subset {t u v : Tree} (hv : v ∈ u.nodes) (hu : u ∈ t.nodes) : v ∈ t.nodes := by
  induction t using induction with
  | leaf n t =>
    rw [nodes_leaf, List.mem_singleton] at hu
    rwa [← hu]
  | node n r s cs ih =>
    rcases mem_nodes.mp hu with rfl | ⟨c, hc, hu⟩
    · exact hv
    · exact mem_nodes.mpr (.inr ⟨c, hc, ih c hc hu⟩)

theorem descendants_subset {t u v : Tree} (hv : v ∈ u.nodes) (hu : u ∈ t.descendants) :
    v ∈ t.descendants := by
  obtain ⟨c, hc, hu⟩ := mem_descendants.mp hu
  exact mem_descendants.mpr ⟨c, hc, nodes_subset hv hu⟩

theorem size_le_sizes {t : Tree} {ts : List Tree} (h : t ∈ ts) : t.size ≤ sizes ts := by
  obtain ⟨us, vs, rfl⟩ := List.append_of_mem h
  rw [sizes_append, sizes_cons]
  omega

theorem size_le_of_mem_nodes {t u : Tree} (h : u ∈ t.nodes) : u.size ≤ t.size := by
  induction t using induction with
  | leaf n t =>
    rw [nodes_leaf, List.mem_singleton] at h
    exact Nat.le_of_eq (congrArg size h)
  | node n r s cs ih =>
    rcases mem_nodes.mp h with rfl | ⟨c, hc, hu⟩
    · exact Nat.le_refl _
    · have := ih c hc hu
      have : c.size ≤ sizes cs := size_le_sizes hc
      have : (node n r s cs).size = sizes cs + 1 := size_eq _
      omega

/-- A tree does not lie beneath itself. -/
theorem ne_of_mem_descendants {t u : Tree} (h : u ∈ t.descendants) : u ≠ t := by
  obtain ⟨c, hc, hu⟩ := mem_descendants.mp h
  rintro rfl
  have := size_le_of_mem_nodes hu
  have := size_le_sizes hc
  have := size_eq u
  omega

/-! ### Tokens -/

/-- The tokens of a tree, in source order. -/
def tokens (t : Tree) : List Token := t.nodes.filterMap token?

@[simp] theorem tokens_leaf (n : Nat) (t : Token) : (leaf n t).tokens = [t] := by
  simp [tokens, token?]

@[simp] theorem tokens_node (n : Nat) (r : RuleId) (s : Option Span) (cs : List Tree) :
    (node n r s cs).tokens = cs.flatMap tokens := by
  rw [tokens, nodes_node, List.filterMap_cons_none rfl, List.filterMap_flatMap]
  rfl

theorem exists_eq_leaf {t : Tree} {x : Token} (h : t.token? = some x) : ∃ n, t = leaf n x := by
  cases t with
  | leaf n y => exact ⟨n, congrArg _ (Option.some.inj h)⟩
  | node n r s cs => contradiction

theorem tokens_sublist_of_mem_nodes {t u : Tree} (h : u ∈ t.nodes) : u.tokens.Sublist t.tokens := by
  induction t using induction with
  | leaf n token =>
    rw [nodes_leaf, List.mem_singleton] at h
    rw [h]
  | node n r s cs ih =>
    rcases mem_nodes.mp h with rfl | ⟨c, hc, hu⟩
    · exact List.Sublist.refl _
    · have hc' := (List.singleton_sublist.mpr hc).flatMap tokens
      rw [List.flatMap_singleton] at hc'
      rw [tokens_node]
      exact (ih c hc hu).trans hc'

theorem tokens_subset {t u : Tree} (h : u ∈ t.nodes) : u.tokens ⊆ t.tokens :=
  (tokens_sublist_of_mem_nodes h).subset

/-- The tokens of a tree with the innermost production around each of them. A token that is not
beneath a production of the tree stands under `parent`. -/
def visible : Tree → Option RuleId → List StreamToken :=
  fold (fun _ token parent => [⟨token, parent⟩])
    (fun _ r _ children _ => children.flatMap (· (some r)))

@[simp] theorem visible_leaf (n : Nat) (t : Token) (parent : Option RuleId) :
    (leaf n t).visible parent = [⟨t, parent⟩] := by
  rw [visible, fold_leaf]

@[simp] theorem visible_node (n : Nat) (r : RuleId) (s : Option Span) (cs : List Tree)
    (parent : Option RuleId) :
    (node n r s cs).visible parent = cs.flatMap (·.visible (some r)) := by
  simp only [visible, fold_node, List.flatMap_map]

theorem map_token_visible (t : Tree) (parent : Option RuleId) :
    (t.visible parent).map (·.token) = t.tokens := by
  induction t using induction generalizing parent with
  | leaf n t => simp
  | node n r s cs ih =>
    rw [visible_node, tokens_node, List.map_flatMap]
    exact List.flatMap_congr fun c hc => ih c hc (some r)

/-! ### Spans -/

/-- The span from the first of some tokens to the last. -/
def spanOfTokens (ts : List Token) : Option Span :=
  Option.map₂ Span.mk (ts.head?.map (·.span.start)) (ts.getLast?.map (·.span.stop))

/-- Every production of the tree carries the span that its children give. -/
def Spanned (t : Tree) : Prop :=
  ∀ n r s cs, node n r s cs ∈ t.nodes → s = spanOfChildren cs

theorem spanned_leaf (n : Nat) (t : Token) : (leaf n t).Spanned := by
  intro m r s cs h
  simp at h

theorem spanned_branch {n : Nat} {r : RuleId} {cs : List Tree} (h : ∀ c ∈ cs, c.Spanned) :
    (branch n r cs).Spanned := by
  intro m r' s' cs' hmem
  rw [branch, nodes_node, List.mem_cons] at hmem
  rcases hmem with heq | hmem
  · obtain ⟨-, -, rfl, rfl⟩ := node.inj heq
    rfl
  · obtain ⟨c, hc, hmem⟩ := List.mem_flatMap.mp hmem
    exact h c hc m r' s' cs' hmem

theorem Spanned.of_mem {t u : Tree} (h : t.Spanned) (hu : u ∈ t.nodes) : u.Spanned :=
  fun n r s cs hmem => h n r s cs (nodes_subset hmem hu)

theorem Spanned.of_mem_children {t c : Tree} (h : t.Spanned) (hc : c ∈ t.children) : c.Spanned :=
  h.of_mem (mem_nodes_of_mem_children hc)

theorem spanOfChildren_eq_map₂ (cs : List Tree) :
    spanOfChildren cs = Option.map₂ Span.mk ((cs.findSome? span).map (·.start))
      ((cs.reverse.findSome? span).map (·.stop)) := by
  rw [spanOfChildren]
  cases cs.findSome? span <;> cases cs.reverse.findSome? span <;> rfl

theorem start_findSome?_span {cs : List Tree} (h : ∀ c ∈ cs, c.span = spanOfTokens c.tokens) :
    (cs.findSome? span).map (·.start) = (cs.flatMap tokens).head?.map (·.span.start) := by
  induction cs with
  | nil => rfl
  | cons c cs ih =>
    have ih := ih fun d hd => h d (List.mem_cons_of_mem _ hd)
    rw [List.findSome?_cons, h c List.mem_cons_self, List.flatMap_cons]
    cases hts : c.tokens with
    | nil => simpa [spanOfTokens] using ih
    | cons a ts => simp [spanOfTokens, List.getLast?_cons]

theorem stop_findSome?_span {cs : List Tree} (h : ∀ c ∈ cs, c.span = spanOfTokens c.tokens) :
    (cs.findSome? span).map (·.stop)
      = (cs.reverse.flatMap tokens).getLast?.map (·.span.stop) := by
  induction cs with
  | nil => rfl
  | cons c cs ih =>
    have ih := ih fun d hd => h d (List.mem_cons_of_mem _ hd)
    rw [List.findSome?_cons, h c List.mem_cons_self, List.reverse_cons, List.flatMap_append]
    cases hts : c.tokens with
    | nil => simpa [spanOfTokens, hts] using ih
    | cons a ts => simp [spanOfTokens, List.getLast?_append, List.getLast?_cons, hts]

/-- **The span of a node.** It reaches from the start of the first token beneath the node to the
stop of the last one, and a node without tokens has none. -/
theorem Spanned.span_eq {t : Tree} (h : t.Spanned) : t.span = spanOfTokens t.tokens := by
  induction t using induction with
  | leaf n t => simp [span, spanOfTokens]
  | node n r s cs ih =>
    have hcs : ∀ c ∈ cs, c.span = spanOfTokens c.tokens := fun c hc =>
      ih c hc (h.of_mem_children hc)
    have hstop := @stop_findSome?_span cs.reverse (by simpa using hcs)
    rw [List.reverse_reverse] at hstop
    rw [span, h n r s cs (self_mem_nodes _), tokens_node, spanOfChildren_eq_map₂,
      start_findSome?_span hcs, hstop, spanOfTokens]

theorem Spanned.exists_token {t : Tree} (h : t.Spanned) {s : Span} (hs : t.span = some s) :
    ∃ x ∈ t.tokens, x.span.start = s.start := by
  rw [h.span_eq, spanOfTokens, Option.map₂_eq_some_iff] at hs
  obtain ⟨_, _, hstart, -, rfl⟩ := hs
  obtain ⟨x, hx, rfl⟩ := Option.map_eq_some_iff.mp hstart
  exact ⟨x, List.mem_of_mem_head? hx, rfl⟩

end Tree

end Highlighting
