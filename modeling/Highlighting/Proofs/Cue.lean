import Highlighting.Proofs.Walk

/-!
# Trees as lists of cues

A notice of a walk carries a site, and a site the whole tree around it. A cue is what is left of a
notice without that context: the walk enters, visits or leaves, and the node has such a number and
is such a production or token. The cues of a tree can be written down while the tree is still being
built, when there are no sites yet, and that is what they are for.

Nothing is lost. Productions stand around their parts like brackets, so no two trees have the same
cues: `Tree.cues_injective` recovers the tree, up to cached spans, which are determined by it.

## Main definitions

* `Cue`, with `Cue.map` and `Cue.Matches` for what is known of a token
* `Tree.cues`: the cues of a walk over a tree
* `Notice.cue?`: the cue of a notice

## Main results

* `Site.map_cue?_notices`: a walk gives the cues of the tree
* `Tree.cues_injective`: the cues determine the tree
-/

namespace Highlighting

/-- A step of a walk, told by the number of the node. What is said of a token is an `α`. -/
inductive Cue (α : Type) where
  /-- A production is entered. -/
  | enter (id : Nat) (rule : RuleId)
  /-- A token is passed. -/
  | visit (id : Nat) (token : α)
  /-- A production is left. -/
  | leave (id : Nat) (rule : RuleId)
  deriving DecidableEq, Repr

namespace Cue

variable {α β : Type}

/-- Says something else of the token. -/
def map (f : α → β) : Cue α → Cue β
  | enter n r => enter n r
  | visit n a => visit n (f a)
  | leave n r => leave n r

/-- Two cues of the same step, whose tokens are related. -/
inductive Matches (R : α → β → Prop) : Cue α → Cue β → Prop
  | enter (n : Nat) (r : RuleId) : Matches R (enter n r) (enter n r)
  | visit (n : Nat) {a : α} {b : β} (h : R a b) : Matches R (visit n a) (visit n b)
  | leave (n : Nat) (r : RuleId) : Matches R (leave n r) (leave n r)

/-- The number of a node that is reached. -/
def arrived? : Cue α → Option Nat
  | enter n _ | visit n _ => some n
  | leave _ _ => none

/-- The token that is passed. -/
def visited? : Cue α → Option α
  | visit _ a => some a
  | enter _ _ | leave _ _ => none

theorem Matches.map_eq {R : α → β → Prop} {γ : Type} {f : α → γ} {g : β → γ}
    (hfg : ∀ a b, R a b → f a = g b) {x : Cue α} {y : Cue β} (h : Matches R x y) :
    x.map f = y.map g := by
  cases h with
  | enter n r => rfl
  | visit n h => rw [map, map, hfg _ _ h]
  | leave n r => rfl

theorem Matches.arrived?_eq {R : α → β → Prop} {x : Cue α} {y : Cue β} (h : Matches R x y) :
    x.arrived? = y.arrived? := by
  cases h <;> rfl

end Cue

/-! ### The cues of a tree -/

namespace Tree

/-- The cues of a walk over a tree. -/
def cues : Tree → List (Cue Token) :=
  fold (fun n t => [.visit n t])
    (fun n r _ children => .enter n r :: children.flatten ++ [.leave n r])

@[simp] theorem cues_leaf (n : Nat) (t : Token) : (leaf n t).cues = [.visit n t] := by
  rw [cues, fold_leaf]

@[simp] theorem cues_node (n : Nat) (r : RuleId) (s : Option Span) (cs : List Tree) :
    (node n r s cs).cues = .enter n r :: cs.flatMap cues ++ [.leave n r] := by
  rw [cues, fold_node, ← List.flatMap_def]

theorem filterMap_visited?_cues (t : Tree) : t.cues.filterMap Cue.visited? = t.tokens := by
  induction t using induction with
  | leaf n t => simp [Cue.visited?]
  | node n r s cs ih =>
    rw [cues_node, List.filterMap_append, List.filterMap_cons_none rfl, List.filterMap_flatMap,
      List.flatMap_congr ih, tokens_node]
    exact List.append_nil _

theorem filterMap_arrived?_cues (t : Tree) :
    t.cues.filterMap Cue.arrived? = t.nodes.map Tree.id := by
  induction t using induction with
  | leaf n t => simp [Cue.arrived?, id]
  | node n r s cs ih =>
    rw [cues_node, List.filterMap_append, List.filterMap_cons, List.filterMap_flatMap,
      List.flatMap_congr ih, nodes_node, List.map_cons, List.map_flatMap]
    exact List.append_nil _

theorem exists_cues_eq_cons (t : Tree) :
    ∃ x xs, t.cues = x :: xs ∧ ∀ n r, x ≠ .leave n r := by
  cases t with
  | leaf n t => exact ⟨_, _, cues_leaf n t, by simp⟩
  | node n r s cs => exact ⟨_, _, cues_node n r s cs, by simp⟩

/-- The list of cues of a forest ends where a production is left. -/
theorem flatMap_cues_append_inj {cs ds : List Tree} {n : Nat} {r : RuleId}
    {xs ys : List (Cue Token)}
    (hcs : ∀ c ∈ cs, ∀ d ∈ ds, ∀ us vs, c.cues ++ us = d.cues ++ vs → c = d ∧ us = vs)
    (h : cs.flatMap cues ++ .leave n r :: xs = ds.flatMap cues ++ .leave n r :: ys) :
    cs = ds ∧ xs = ys := by
  induction cs generalizing ds with
  | nil =>
    cases ds with
    | nil => simpa using h
    | cons d ds =>
      obtain ⟨x, us, hd, hx⟩ := d.exists_cues_eq_cons
      rw [List.flatMap_cons, hd] at h
      exact absurd (List.cons.inj h).1.symm (hx n r)
  | cons c cs ih =>
    cases ds with
    | nil =>
      obtain ⟨x, us, hc, hx⟩ := c.exists_cues_eq_cons
      rw [List.flatMap_cons, hc] at h
      exact absurd (List.cons.inj h).1 (hx n r)
    | cons d ds =>
      rw [List.flatMap_cons, List.flatMap_cons, List.append_assoc, List.append_assoc] at h
      obtain ⟨rfl, hrest⟩ := hcs c List.mem_cons_self d List.mem_cons_self _ _ h
      obtain ⟨rfl, rfl⟩ := ih (fun c' hc' d' hd' =>
        hcs c' (List.mem_cons_of_mem _ hc') d' (List.mem_cons_of_mem _ hd')) hrest
      exact ⟨rfl, rfl⟩

theorem cues_append_inj {t u : Tree} (ht : t.Spanned) (hu : u.Spanned)
    {xs ys : List (Cue Token)} (h : t.cues ++ xs = u.cues ++ ys) : t = u ∧ xs = ys := by
  induction t using induction generalizing u xs ys with
  | leaf n x =>
    cases u with
    | leaf m y => simpa [and_assoc] using h
    | node m r s cs => simp at h
  | node n r s cs ih =>
    cases u with
    | leaf m y => simp at h
    | node m r' s' ds =>
      rw [cues_node, cues_node] at h
      simp only [List.cons_append, List.append_assoc, List.cons.injEq, Cue.enter.injEq,
        List.nil_append] at h
      obtain ⟨⟨rfl, rfl⟩, h⟩ := h
      obtain ⟨rfl, rfl⟩ := flatMap_cues_append_inj
        (fun c hc d hd us vs => ih c hc (ht.of_mem_children hc) (hu.of_mem_children hd)) h
      rw [ht _ _ _ _ (self_mem_nodes _), hu _ _ _ _ (self_mem_nodes _)]
      exact ⟨rfl, rfl⟩

/-- **The cues determine the tree.** -/
theorem cues_injective {t u : Tree} (ht : t.Spanned) (hu : u.Spanned) (h : t.cues = u.cues) :
    t = u :=
  (cues_append_inj ht hu (congrArg (· ++ []) h)).1

end Tree

/-! ### The cues of a walk -/

/-- What is left of a notice without its site. -/
def Notice.cue? : Notice → Option (Cue Token)
  | .enter s => s.tree.rule?.map (.enter s.tree.id)
  | .visit s => s.tree.token?.map (.visit s.tree.id)
  | .leave s => s.tree.rule?.map (.leave s.tree.id)

/-- **A walk gives the cues of the tree.** -/
theorem Site.map_cue?_notices (s : Site) : s.notices.map Notice.cue? = s.tree.cues.map some := by
  induction s using Site.induction with
  | leaf s hs =>
    obtain ⟨⟨n, t⟩ | _, up⟩ := s
    · rw [notices_of_isLeaf hs, Tree.cues_leaf]
      rfl
    · contradiction
  | production s hs ih =>
    obtain ⟨_ | ⟨n, r, sp, cs⟩, up⟩ := s
    · contradiction
    · rw [notices_of_production hs, Tree.cues_node]
      simp only [List.cons_append, List.map_cons, List.map_append, List.map_flatMap, List.map_nil,
        List.flatMap_congr ih]
      rw [children, List.flatMap_map]
      rfl

end Highlighting
