import Highlighting.Proofs.Sites
import Highlighting.Proofs.ScanDirection

/-!
# Outermost nodes

`Tree.topmost` says by recursion what a scan comes to: it takes a node that passes the test and does
not look beneath it. Which nodes these are can also be said without going down the tree. A node is
outermost beneath another one if it passes the test and no node that does so, too, stands between
the two. This is how a rule is described, and this module shows that both are the same list.

For this, nodes have to be told apart. Two subtrees of a tree may look alike, so `Tree.isAbove`
compares numbers, and in a tree that is numbered from left to right (`Tree.Numbered`, as every parse
is) a number belongs to one node, and a node lies beneath one child only.

## Main definitions

* `Tree.outermost`: the nodes strictly beneath a node that pass a test, without those beneath
  another one of them

## Main results

* `Tree.Numbered.mem_outermost`: what is outermost, said by descendants
* `Tree.Numbered.flatMap_topmost_eq_outermost`: the recursion finds the outermost nodes
* `Scan.marks_production`: the marks of a scan for a production
-/

namespace Highlighting

namespace Tree

variable {t u v c d : Tree} {test : Tree → Bool}

/-! ### Nodes by number -/

theorem Numbered.eq_of_id_eq (h : t.Numbered) (hu : u ∈ t.nodes) (hv : v ∈ t.nodes)
    (hid : u.id = v.id) : u = v := by
  have hnodup : (t.nodes.map Tree.id).Nodup := h.imp Nat.ne_of_lt
  exact List.inj_on_of_nodup_map hnodup hu hv hid

/-- A node lies beneath one child only. -/
theorem Numbered.eq_of_mem_nodes (h : t.Numbered) (hc : c ∈ t.children) (hd : d ∈ t.children)
    (huc : u ∈ c.nodes) (hud : u ∈ d.nodes) : c = d := by
  rw [Numbered, nodes, descendants_eq_flatMap, List.map_cons, List.pairwise_cons, List.map_flatMap,
    List.pairwise_flatMap] at h
  have hapart : t.children.Pairwise fun c d => ∀ u ∈ c.nodes, u ∉ d.nodes :=
    h.2.2.imp fun hlt u huc hud =>
      Nat.lt_irrefl _ (hlt _ (List.mem_map_of_mem huc) _ (List.mem_map_of_mem hud))
  have : Std.Symm fun c d : Tree => ∀ u ∈ c.nodes, u ∉ d.nodes :=
    ⟨fun c d hcd u hud huc => hcd u huc hud⟩
  by_contra hne
  exact hapart.forall hc hd hne u huc hud

/-- Whether a node stands above another one, which is known by its number. -/
def isAbove (t u : Tree) : Bool := t.descendants.any (·.id == u.id)

theorem Numbered.isAbove_iff (h : t.Numbered) (hu : u ∈ t.nodes) (hv : v ∈ t.nodes) :
    v.isAbove u = true ↔ u ∈ v.descendants := by
  simp only [isAbove, List.any_eq_true, beq_iff_eq]
  constructor
  · rintro ⟨w, hw, hid⟩
    have hwt : w ∈ t.nodes := nodes_subset (List.mem_cons_of_mem _ hw) hv
    rwa [← h.eq_of_id_eq hwt hu hid]
  · intro huv
    exact ⟨u, huv, rfl⟩

/-! ### Outermost nodes -/

/-- Whether no node of a list that passes the test stands above a node. -/
def uncovered (test : Tree → Bool) (ns : List Tree) (u : Tree) : Bool :=
  !ns.any fun v => test v && v.isAbove u

/-- The nodes of a list that pass a test and have no other one of them above. -/
def outermostOf (test : Tree → Bool) (ns : List Tree) : List Tree :=
  ns.filter fun u => test u && uncovered test ns u

/-- The nodes strictly beneath a node that pass a test and have no other one of them above, in
source order. -/
def outermost (test : Tree → Bool) (t : Tree) : List Tree := outermostOf test t.descendants

theorem Numbered.uncovered_iff (h : t.Numbered) {ns : List Tree} (hns : ns ⊆ t.nodes)
    (hu : u ∈ t.nodes) :
    uncovered test ns u = true ↔ ∀ v ∈ ns, test v = true → u ∉ v.descendants := by
  simp only [uncovered, Bool.not_eq_true', List.any_eq_false, Bool.and_eq_true, not_and]
  exact forall₂_congr fun v hv => imp_congr_right fun _ => not_congr (h.isAbove_iff hu (hns hv))

/-- **What is outermost**, said by descendants. -/
theorem Numbered.mem_outermost (h : t.Numbered) :
    u ∈ t.outermost test ↔ u ∈ t.descendants ∧ test u = true ∧
      ∀ v ∈ t.descendants, test v = true → u ∉ v.descendants := by
  rw [outermost, outermostOf, List.mem_filter, Bool.and_eq_true]
  refine and_congr_right fun hu => and_congr_right fun _ => ?_
  exact h.uncovered_iff (List.subset_cons_self _ _) (List.mem_cons_of_mem _ hu)

/-- What covers a node beneath a child lies beneath that child, too. -/
theorem Numbered.uncovered_child (h : t.Numbered) (hc : c ∈ t.children) (hu : u ∈ c.nodes) :
    uncovered test t.descendants u = uncovered test c.nodes u := by
  have hut : u ∈ t.nodes := nodes_subset hu (mem_nodes_of_mem_children hc)
  rw [Bool.eq_iff_iff, h.uncovered_iff (List.subset_cons_self _ _) hut,
    (h.children.1 c hc).uncovered_iff (List.Subset.refl _) hu]
  constructor
  · intro hfree v hv
    exact hfree v (mem_descendants.mpr ⟨c, hc, hv⟩)
  · intro hfree v hv htest huv
    obtain ⟨d, hd, hvd⟩ := mem_descendants.mp hv
    obtain rfl := h.eq_of_mem_nodes hc hd hu (nodes_subset (List.mem_cons_of_mem _ huv) hvd)
    exact hfree v hvd htest huv

theorem Numbered.outermost_eq_flatMap (h : t.Numbered) :
    t.outermost test = t.children.flatMap fun c => outermostOf test c.nodes := by
  have hfilter : ∀ p : Tree → Bool, t.descendants.filter p
      = t.children.flatMap fun c => c.nodes.filter p := by
    intro p
    rw [descendants_eq_flatMap, List.filter_flatMap]
  rw [outermost, outermostOf, hfilter]
  refine List.flatMap_congr fun c hc => List.filter_congr fun u hu => ?_
  rw [h.uncovered_child hc hu]

/-- A node that passes the test covers everything beneath it. -/
theorem Numbered.outermostOf_nodes_of_pos (h : t.Numbered) (htest : test t = true) :
    outermostOf test t.nodes = [t] := by
  have hself : uncovered test t.nodes t = true := by
    refine (h.uncovered_iff (List.Subset.refl _) t.self_mem_nodes).mpr fun v hv _ htv => ?_
    rcases List.mem_cons.mp hv with rfl | hv
    · exact ne_of_mem_descendants htv rfl
    · exact ne_of_mem_descendants (descendants_subset (List.mem_cons_of_mem _ htv) hv) rfl
  have hothers : (t.descendants.filter fun u => test u && uncovered test t.nodes u) = [] := by
    refine List.filter_eq_nil_iff.mpr fun u hu hfree => ?_
    have hut : u ∈ t.nodes := List.mem_cons_of_mem _ hu
    exact (h.uncovered_iff (List.Subset.refl _) hut).mp (Bool.and_eq_true_iff.mp hfree).2
      t t.self_mem_nodes htest hu
  show List.filter _ (t :: t.descendants) = [t]
  rw [List.filter_cons_of_pos (by rw [htest, hself, Bool.and_self]), hothers]

/-- A node that does not pass the test covers nothing. -/
theorem outermostOf_nodes_of_neg (htest : test t = false) :
    outermostOf test t.nodes = t.outermost test := by
  have hcover : uncovered test t.nodes = uncovered test t.descendants := by
    funext u
    simp [uncovered, nodes, htest]
  rw [outermostOf, hcover, nodes, List.filter_cons_of_neg (by simp [htest])]
  rfl

theorem Numbered.topmost_eq_outermostOf (h : t.Numbered) :
    t.topmost test = outermostOf test t.nodes := by
  induction t using induction with
  | leaf n x =>
    cases htest : test (.leaf n x) with
    | true => rw [topmost_of_pos htest, h.outermostOf_nodes_of_pos htest]
    | false =>
      rw [topmost_of_neg htest, outermostOf_nodes_of_neg htest, h.outermost_eq_flatMap]
      rfl
  | node n r s cs ih =>
    cases htest : test (.node n r s cs) with
    | true => rw [topmost_of_pos htest, h.outermostOf_nodes_of_pos htest]
    | false =>
      rw [topmost_of_neg htest, outermostOf_nodes_of_neg htest, h.outermost_eq_flatMap]
      exact List.flatMap_congr fun c hc => ih c hc (h.children.1 c hc)

/-- **The recursion finds the outermost nodes.** -/
theorem Numbered.flatMap_topmost_eq_outermost (h : t.Numbered) (test : Tree → Bool) :
    t.children.flatMap (topmost test) = t.outermost test := by
  rw [h.outermost_eq_flatMap]
  exact List.flatMap_congr fun c hc => (h.children.1 c hc).topmost_eq_outermostOf

end Tree

/-! ### Scans -/

namespace Scan

theorem matchesTree_production (r : RuleId) :
    (Scan.production r).matchesTree = fun t => t.isRule r := by
  funext t
  cases t with
  | leaf n x => rfl
  | node n rule s cs =>
    by_cases h : rule = r
    · simp [matchesTree, production, hit?, Tree.isRule, h]
    · simp [matchesTree, production, hit?, Tree.isRule, h]

/-- **The marks of a scan for a production**: one for every outermost production that has a span. -/
theorem marks_production {t : Tree} (h : t.Numbered) (r origin : RuleId) (category : Category) :
    (Scan.production r).marks origin category t
      = (t.outermost (·.isRule r)).filterMap (Override.ofTree? · category origin) := by
  rw [marks_eq, ← h.flatMap_topmost_eq_outermost, ← matchesTree_production]
  rfl

end Scan

end Highlighting
