import Highlighting.Proofs.Parses

/-!
# Sites of a parse

A node of a tree knows what is beneath it. In an arena it goes by its position, and knows its parent
by the position of that. A site is a node together with the nodes above it, as a walk comes to it,
and stands between the two: there is one site for every position, and the parent that is recorded of
a position is the position of the site right above (`Parse.parentAt?_eq_some_iff`).

What makes this work is that nodes are numbered in the order in which a walk comes to them. Numbers
grow from parents to children and from left to right (`Tree.Numbered`), so no two sites have the
same number.

## Main definitions

* `Tree.Numbered`: numbers grow from parents to children and from left to right
* `Parse.sites`: the sites of the tree

## Main results

* `Parse.map_id_sites`: the sites are numbered from `0` on
* `Parse.parentAt?_eq_some_iff`, `Parse.ruleAt?_id`: what an arena records of a site
-/

namespace Highlighting

/-! ### Numbers -/

namespace Tree

/-- Numbers grow from parents to children and from left to right. -/
def Numbered (t : Tree) : Prop := (t.nodes.map Tree.id).Pairwise (· < ·)

theorem Numbered.children {t : Tree} (h : t.Numbered) :
    (∀ c ∈ t.children, c.Numbered) ∧ (∀ c ∈ t.children, t.id < c.id) ∧
      (t.children.map Tree.id).Pairwise (· < ·) := by
  rw [Numbered, nodes, descendants_eq_flatMap, List.map_cons, List.pairwise_cons, List.map_flatMap,
    List.pairwise_flatMap] at h
  obtain ⟨hself, hchild, hsiblings⟩ := h
  refine ⟨hchild, fun c hc => hself _ ?_, List.pairwise_map.mpr (hsiblings.imp fun hcd => ?_)⟩
  · exact List.mem_flatMap.mpr ⟨c, hc, List.mem_map_of_mem c.self_mem_nodes⟩
  · exact hcd _ (List.mem_map_of_mem (self_mem_nodes _)) _ (List.mem_map_of_mem (self_mem_nodes _))

theorem Numbered.of_mem {t u : Tree} (h : t.Numbered) (hu : u ∈ t.nodes) : u.Numbered := by
  induction t using induction with
  | leaf n x =>
    rw [nodes_leaf, List.mem_singleton] at hu
    rwa [hu]
  | node n r s cs ih =>
    rcases mem_nodes.mp hu with rfl | ⟨c, hc, hu⟩
    · exact h
    · exact ih c hc (h.children.1 c hc) hu

end Tree

/-! ### Sites and their children -/

namespace Site

variable {s n c : Site}

theorem children_of_isLeaf (h : s.tree.isLeaf = true) : s.children = [] := by
  refine List.eq_nil_iff_forall_not_mem.mpr fun c hc => ?_
  rw [isLeaf_of_mem_children hc] at h
  contradiction

theorem arrivals_eq (s : Site) : s.arrivals = s :: s.children.flatMap arrivals := by
  cases h : s.tree.isLeaf with
  | true => rw [arrivals_of_isLeaf h, children_of_isLeaf h, List.flatMap_nil]
  | false => exact arrivals_of_production h

theorem mem_arrivals : n ∈ s.arrivals ↔ n = s ∨ ∃ c ∈ s.children, n ∈ c.arrivals := by
  rw [arrivals_eq, List.mem_cons, List.mem_flatMap]

/-- A walk reaches the children of every site that it reaches. -/
theorem mem_arrivals_of_mem_children (hn : n ∈ s.arrivals) (hc : c ∈ n.children) :
    c ∈ s.arrivals := by
  induction s using induction with
  | leaf s hs =>
    rw [arrivals_of_isLeaf hs, List.mem_singleton] at hn
    rw [hn, children_of_isLeaf hs] at hc
    contradiction
  | production s hs ih =>
    rcases mem_arrivals.mp hn with rfl | ⟨d, hd, hn⟩
    · exact mem_arrivals.mpr (.inr ⟨c, hc, mem_arrivals.mpr (.inl rfl)⟩)
    · exact mem_arrivals.mpr (.inr ⟨d, hd, ih d hd hn⟩)

end Site

namespace Parse

/-- The sites of the tree, in the order in which a walk reaches them. -/
def sites (p : Parse) : List Site := (Site.ofRoot p.root).arrivals

variable {source : String} {events : List Event} {p : Parse}

theorem map_tree_sites (p : Parse) : p.sites.map Site.tree = p.root.nodes :=
  Site.map_tree_arrivals _

theorem map_id_sites (h : ofEvents source events = .ok p) :
    p.sites.map (·.tree.id) = List.range p.nodeCount := by
  rw [Parse.nodeCount_eq h, ← map_id_nodes h, ← map_tree_sites, List.map_map]
  rfl

theorem tree_mem_nodes {s : Site} (hs : s ∈ p.sites) : s.tree ∈ p.root.nodes :=
  map_tree_sites p ▸ List.mem_map_of_mem hs

theorem numbered_root (h : ofEvents source events = .ok p) : p.root.Numbered := by
  rw [Tree.Numbered, map_id_nodes h]
  exact List.pairwise_lt_range

theorem site_eq_of_id_eq (h : ofEvents source events = .ok p) {s n : Site} (hs : s ∈ p.sites)
    (hn : n ∈ p.sites) (hid : s.tree.id = n.tree.id) : s = n := by
  refine List.inj_on_of_nodup_map (f := fun s : Site => s.tree.id) ?_ hs hn hid
  rw [map_id_sites h]
  exact List.nodup_range

theorem root_mem_sites (p : Parse) : Site.ofRoot p.root ∈ p.sites :=
  Site.mem_arrivals.mpr (.inl rfl)

/-! ### Sites and positions -/

variable {a : RootedArena} {s q : Site} {m n : Nat}

theorem ofEvents_of_build (h : Builder.build source events = .ok a) :
    ofEvents source events = .ok (ofArena a) := by
  rw [ofEvents, h]
  rfl

theorem holds_of_mem_sites (h : Builder.build source events = .ok a)
    (hs : s ∈ (ofArena a).sites) : a.Holds [] s.tree :=
  (Builder.holds_root h).of_mem_nodes (tree_mem_nodes hs)

/-- There is a site for every position. -/
theorem exists_site (h : Builder.build source events = .ok a) (hn : n < a.nodes.size) :
    ∃ s ∈ (ofArena a).sites, s.tree.id = n := by
  have hparse := ofEvents_of_build h
  obtain ⟨herror, -, -, harena⟩ := Builder.finish_eq_ok.mp h
  have hsize : (ofArena a).nodeCount = a.nodes.size := by
    rw [nodeCount_eq hparse, ← harena, (Builder.records_run herror).size_nodes]
  have hmem : n ∈ (ofArena a).sites.map (·.tree.id) := by
    rw [map_id_sites hparse, hsize]
    exact List.mem_range.mpr hn
  exact List.mem_map.mp hmem

theorem ruleAt?_id (h : Builder.build source events = .ok a) (hs : s ∈ (ofArena a).sites) :
    a.ruleAt? s.tree.id = s.tree.rule? :=
  (holds_of_mem_sites h hs).ruleAt?_eq

theorem parentAt?_of_mem_children (h : Builder.build source events = .ok a)
    (hs : s ∈ (ofArena a).sites) (hq : q ∈ s.children) :
    a.parentAt? q.tree.id = some s.tree.id := by
  have hlinked := Builder.linked_of_build h
  obtain ⟨t, ht, rfl⟩ := List.mem_map.mp hq
  refine (hlinked.mem_childrenAt_iff _ _).mp ?_
  rw [← Array.mem_toList_iff, (holds_of_mem_sites h hs).childrenAt_eq hlinked]
  exact List.mem_map_of_mem ht

/-- **The parent that is recorded of a position** is the position of the site right above. -/
theorem parentAt?_eq_some_iff (h : Builder.build source events = .ok a) :
    a.parentAt? n = some m ↔ ∃ q ∈ (ofArena a).sites, ∃ s ∈ (ofArena a).sites,
      q ∈ s.children ∧ q.tree.id = n ∧ s.tree.id = m := by
  constructor
  · intro hparent
    have hlinked := Builder.linked_of_build h
    have hlt := Arena.lt_size_of_parentAt? hparent
    obtain ⟨s, hs, rfl⟩ := exists_site h ((hlinked.parent_lt n m hparent).1.trans hlt)
    have hmem := (hlinked.mem_childrenAt_iff _ n).mpr hparent
    rw [← Array.mem_toList_iff, (holds_of_mem_sites h hs).childrenAt_eq hlinked] at hmem
    obtain ⟨t, ht, rfl⟩ := List.mem_map.mp hmem
    have hq : ⟨t, s.tree :: s.ancestors⟩ ∈ s.children := List.mem_map_of_mem ht
    exact ⟨_, Site.mem_arrivals_of_mem_children hs hq, s, hs, hq, rfl, rfl⟩
  · rintro ⟨q, -, s, hs, hq, rfl, rfl⟩
    exact parentAt?_of_mem_children h hs hq

end Parse

end Highlighting
