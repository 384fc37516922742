import Mathlib.Data.List.Sort
import Mathlib.Logic.Relation
import Highlighting.Proofs.Sites

/-!
# Descendants and parents

Looking down from a node runs over a list of nodes that are still to be visited, which the children
of each visited node join at the front. Nothing in this refers to parents: a node is found because
it was in the list of children of a node that was found. Whether it has the node as an ancestor is a
question to the arena, where each position names its parent and a chain of such names leads upwards.

The two agree because they have the same step. A node is a child of another one in the tree exactly
if the other one is recorded as its parent, and both the nodes beneath a node and the nodes whose
chains lead to it are what this step makes of it when it is repeated
(`Parse.above_iff_mem_descendants`). The order then comes for free. Numbers grow along a walk, so
the nodes that are found are in the order of their numbers, and two lists in the order of their
numbers are equal if they have the same nodes.

## Main definitions

* `Site.entries`: the productions in the order in which a walk enters them
* `Arena.Above`: going up from one position leads to another one

## Main results

* `Parse.above_iff_mem_descendants`: chains of parents lead to the nodes that have one beneath them
* `descendantsOf_climb_back`: the productions that are found beneath a node
-/

namespace Highlighting

theorem Tree.isRule_iff_rule? {t : Tree} {r : RuleId} : t.isRule r = true ↔ t.rule? = some r := by
  cases t <;> simp [isRule, rule?]

/-! ### Productions in the order in which they are entered -/

/-- The site of a production that the walk enters. -/
def Notice.entered? : Notice → Option Site
  | enter s => some s
  | visit _ | leave _ => none

namespace Site

/-- The productions in the order in which a walk enters them. -/
def entries (s : Site) : List Site := s.notices.filterMap Notice.entered?

theorem entries_eq_filter (s : Site) : s.entries = s.arrivals.filter fun q => !q.tree.isLeaf := by
  induction s using induction with
  | leaf s hs =>
    rw [entries, filterMap_notices_of_isLeaf _ hs, arrivals_of_isLeaf hs,
      List.filter_cons_of_neg (by simp [hs])]
    rfl
  | production s hs ih =>
    rw [entries, filterMap_notices_of_production _ hs, arrivals_of_production hs,
      List.filter_cons_of_pos (by simp [hs]), List.filter_flatMap, ← List.flatMap_congr ih]
    exact List.append_nil _

end Site

/-! ### Going up and looking down -/

/-- Going up from `n`, from parent to parent, leads to `m` in one step or more. -/
def Arena.Above (a : Arena) (m n : Nat) : Prop :=
  Relation.TransGen (fun k l => a.parentAt? k = some l) n m

namespace Parse

variable {source : String} {events : List Event} {p : Parse} {a : RootedArena} {s q : Site}
  {m n : Nat}

/-- From what lies beneath a node, going up leads to the node. -/
theorem above_of_mem_descendants (h : Builder.build source events = .ok a)
    (hs : s ∈ (ofArena a).sites) {u : Tree} (hu : u ∈ s.tree.descendants) :
    a.Above s.tree.id u.id := by
  induction s using Site.induction with
  | leaf s hleaf =>
    obtain ⟨⟨_, _⟩ | _, up⟩ := s
    · simp [Tree.mem_descendants, Tree.children] at hu
    · contradiction
  | production s _ ih =>
    obtain ⟨c, hc, hu⟩ := Tree.mem_descendants.mp hu
    have hchild : ⟨c, s.tree :: s.ancestors⟩ ∈ s.children := List.mem_map_of_mem hc
    have hstep := parentAt?_of_mem_children h hs hchild
    rcases List.mem_cons.mp hu with rfl | hu
    · exact .single hstep
    · exact (ih _ hchild (Site.mem_arrivals_of_mem_children hs hchild) hu).tail hstep

/-- Where going up leads, the node lies beneath. -/
theorem exists_mem_descendants_of_above (h : Builder.build source events = .ok a)
    (hmn : a.Above m n) : ∃ q ∈ (ofArena a).sites, ∃ s ∈ (ofArena a).sites,
      q.tree.id = n ∧ s.tree.id = m ∧ q.tree ∈ s.tree.descendants := by
  have hchild {q s : Site} (hq : q ∈ s.children) : q.tree ∈ s.tree.descendants := by
    obtain ⟨t, ht, rfl⟩ := List.mem_map.mp hq
    exact Tree.mem_descendants_of_mem_children ht
  induction hmn with
  | single hstep =>
    obtain ⟨q, hq, s, hs, hqs, hn, hm⟩ := (parentAt?_eq_some_iff h).mp hstep
    exact ⟨q, hq, s, hs, hn, hm, hchild hqs⟩
  | tail _ hstep ih =>
    obtain ⟨q, hq, t, ht, hn, hid, hqt⟩ := ih
    obtain ⟨t', ht', s, hs, hts, hid', hm⟩ := (parentAt?_eq_some_iff h).mp hstep
    obtain rfl := site_eq_of_id_eq (ofEvents_of_build h) ht ht' (hid.trans hid'.symm)
    exact ⟨q, hq, s, hs, hn, hm, Tree.descendants_subset (List.mem_cons_of_mem _ hqt) (hchild hts)⟩

/-- **Going up from a node leads to the nodes that have it beneath them**, and to no others. -/
theorem above_iff_mem_descendants (h : Builder.build source events = .ok a)
    (hs : s ∈ (ofArena a).sites) (hq : q ∈ (ofArena a).sites) :
    a.Above s.tree.id q.tree.id ↔ q.tree ∈ s.tree.descendants := by
  constructor
  · intro habove
    obtain ⟨q', hq', s', hs', hqid, hsid, hmem⟩ := exists_mem_descendants_of_above h habove
    obtain rfl := site_eq_of_id_eq (ofEvents_of_build h) hq' hq hqid
    obtain rfl := site_eq_of_id_eq (ofEvents_of_build h) hs' hs hsid
    exact hmem
  · exact above_of_mem_descendants h hs

/-! ### Productions beneath a node -/

/-- What is found beneath a node is a production from which going up leads to the node. -/
theorem mem_descendantsOf_iff (h : Builder.build source events = .ok a)
    (hs : s ∈ (ofArena a).sites) {t : Tree} {r : RuleId} : t ∈ s.tree.descendantsOf r ↔
      ∃ q ∈ (ofArena a).sites, q.tree = t ∧ q.tree.rule? = some r ∧
        a.Above s.tree.id q.tree.id := by
  rw [Tree.descendantsOf, List.mem_filter, Tree.isRule_iff_rule?]
  constructor
  · rintro ⟨ht, hr⟩
    have hroot : t ∈ (ofArena a).sites.map Site.tree := by
      rw [map_tree_sites]
      exact Tree.nodes_subset (List.mem_cons_of_mem _ ht) (tree_mem_nodes hs)
    obtain ⟨q, hq, rfl⟩ := List.mem_map.mp hroot
    exact ⟨q, hq, rfl, hr, (above_iff_mem_descendants h hs hq).mpr ht⟩
  · rintro ⟨q, hq, rfl, hr, habove⟩
    exact ⟨(above_iff_mem_descendants h hs hq).mp habove, hr⟩

theorem pairwise_descendantsOf (h : ofEvents source events = .ok p) (hs : s ∈ p.sites)
    (r : RuleId) : (s.tree.descendantsOf r).Pairwise fun t u => t.id < u.id := by
  have hnumbered : s.tree.Numbered := (numbered_root h).of_mem (tree_mem_nodes hs)
  rw [Tree.Numbered, List.pairwise_map, Tree.nodes, List.pairwise_cons] at hnumbered
  exact hnumbered.2.filter _

theorem mem_entries_iff {r : RuleId} (hr : q.tree.rule? = some r) :
    q ∈ (Site.ofRoot p.root).entries ↔ q ∈ p.sites := by
  have hleaf : q.tree.isLeaf = false := by
    obtain ⟨_ | _, up⟩ := q
    · contradiction
    · rfl
  rw [Site.entries_eq_filter, List.mem_filter]
  exact and_iff_left (by simp [hleaf])

theorem pairwise_entries (h : ofEvents source events = .ok p) :
    (Site.ofRoot p.root).entries.Pairwise fun q q' => q.tree.id < q'.tree.id := by
  have hsites : p.sites.Pairwise fun q q' => q.tree.id < q'.tree.id := by
    rw [← List.pairwise_map (f := fun q : Site => q.tree.id), map_id_sites h]
    exact List.pairwise_lt_range
  rw [Site.entries_eq_filter]
  exact hsites.filter _

end Parse

open Classical in
/-- **Looking down is going up the other way.** What is found of a rule beneath a node is every
production of that rule from which going up, from one recorded parent to the next, leads to the
node, once and by increasing number. This is the order in which a walk over the tree enters them. -/
theorem descendantsOf_climb_back {source : String} {events : List Event} {a : RootedArena}
    (h : Builder.build source events = .ok a) {s : Site} (hs : s ∈ (Parse.ofArena a).sites)
    (r : RuleId) :
    (∀ n, n ∈ (s.tree.descendantsOf r).map Tree.id ↔
        a.ruleAt? n = some r ∧ a.Above s.tree.id n) ∧
      ((s.tree.descendantsOf r).map Tree.id).Pairwise (· < ·) ∧
      s.tree.descendantsOf r = ((Site.ofRoot (Parse.ofArena a).root).entries.filter fun q =>
        q.tree.rule? = some r ∧ a.Above s.tree.id q.tree.id).map Site.tree := by
  have hparse := Parse.ofEvents_of_build h
  have hincreasing := Parse.pairwise_descendantsOf hparse hs r
  refine ⟨fun n => ?_, List.pairwise_map.mpr hincreasing, ?_⟩
  · rw [List.mem_map]
    constructor
    · rintro ⟨t, ht, rfl⟩
      obtain ⟨q, hq, rfl, hr, habove⟩ := (Parse.mem_descendantsOf_iff h hs).mp ht
      exact ⟨(Parse.ruleAt?_id h hq).trans hr, habove⟩
    · rintro ⟨hr, habove⟩
      obtain ⟨q, hq, -, -, rfl, -⟩ := Parse.exists_mem_descendants_of_above h habove
      rw [Parse.ruleAt?_id h hq] at hr
      exact ⟨q.tree, (Parse.mem_descendantsOf_iff h hs).mpr ⟨q, hq, rfl, hr, habove⟩, rfl⟩
  · -- Both lists go by increasing number, so it is enough that they have the same nodes.
    have : Std.Antisymm fun t u : Tree => t.id < u.id := ⟨fun _ _ => by omega⟩
    have : Std.Irrefl fun t u : Tree => t.id < u.id := ⟨fun _ => Nat.lt_irrefl _⟩
    refine hincreasing.eq_of_mem_iff ?_ fun t => ?_
    · exact List.pairwise_map.mpr ((Parse.pairwise_entries hparse).filter _)
    · rw [Parse.mem_descendantsOf_iff h hs, List.mem_map]
      refine exists_congr fun q => ?_
      rw [List.mem_filter, decide_eq_true_iff]
      constructor
      · rintro ⟨hq, rfl, hr, habove⟩
        exact ⟨⟨(Parse.mem_entries_iff hr).mpr hq, hr, habove⟩, rfl⟩
      · rintro ⟨⟨hq, hr, habove⟩, rfl⟩
        exact ⟨(Parse.mem_entries_iff hr).mp hq, rfl, hr, habove⟩

/-- The theorem at a call whose argument is a name in a name. The name behind the call is not
beneath it, though it has a larger number. -/
theorem descendantsOf_climb_back_call :
    ∃ a, Builder.build "f(a)b"
        [.enter 1, .enter 2, .enter 3, .token ⟨7, "f", none⟩, .leave, .token ⟨8, "(", none⟩,
          .enter 3, .enter 3, .token ⟨7, "a", none⟩, .leave, .leave, .token ⟨8, ")", none⟩, .leave,
          .enter 3, .token ⟨7, "b", none⟩, .leave, .leave] = .ok a ∧
      (List.range 11).map a.parentAt? =
        [none, some 0, some 1, some 2, some 1, some 1, some 5, some 6, some 1, some 0, some 9] ∧
      ∃ s ∈ (Parse.ofArena a).sites, s.tree.id = 1 ∧
        (s.tree.descendantsOf 3).map Tree.id = [2, 5, 6] ∧
        a.ruleAt? 9 = some 3 ∧ a.Above 1 6 ∧ ¬a.Above 1 9 := by
  obtain ⟨a, h, hparents, hrule, hroot⟩ : ∃ a, Builder.build "f(a)b"
      [.enter 1, .enter 2, .enter 3, .token ⟨7, "f", none⟩, .leave, .token ⟨8, "(", none⟩,
        .enter 3, .enter 3, .token ⟨7, "a", none⟩, .leave, .leave, .token ⟨8, ")", none⟩, .leave,
        .enter 3, .token ⟨7, "b", none⟩, .leave, .leave] = .ok a ∧
      (List.range 11).map a.parentAt? =
        [none, some 0, some 1, some 2, some 1, some 1, some 5, some 6, some 1, some 0, some 9] ∧
      a.ruleAt? 9 = some 3 ∧
      (Parse.ofArena a).root = .node 0 1 (some ⟨0, 4⟩) [.node 1 2 (some ⟨0, 3⟩)
        [.node 2 3 (some ⟨0, 0⟩) [.leaf 3 ⟨7, ⟨0, 0⟩, "f"⟩], .leaf 4 ⟨8, ⟨1, 1⟩, "("⟩,
          .node 5 3 (some ⟨2, 2⟩) [.node 6 3 (some ⟨2, 2⟩) [.leaf 7 ⟨7, ⟨2, 2⟩, "a"⟩]],
          .leaf 8 ⟨8, ⟨3, 3⟩, ")"⟩],
        .node 9 3 (some ⟨4, 4⟩) [.leaf 10 ⟨7, ⟨4, 4⟩, "b"⟩]] := by
    refine ⟨
      { tokens := #[⟨7, ⟨0, 0⟩, "f"⟩, ⟨8, ⟨1, 1⟩, "("⟩, ⟨7, ⟨2, 2⟩, "a"⟩, ⟨8, ⟨3, 3⟩, ")"⟩,
          ⟨7, ⟨4, 4⟩, "b"⟩]
        tokenParents := #[some 3, some 2, some 3, some 2, some 3]
        nodes := #[⟨.rule 1, none, #[1, 9], some (0, 4)⟩,
          ⟨.rule 2, some 0, #[2, 4, 5, 8], some (0, 3)⟩, ⟨.rule 3, some 1, #[3], some (0, 0)⟩,
          ⟨.terminal 0, some 2, #[], some (0, 0)⟩, ⟨.terminal 1, some 1, #[], some (1, 1)⟩,
          ⟨.rule 3, some 1, #[6], some (2, 2)⟩, ⟨.rule 3, some 5, #[7], some (2, 2)⟩,
          ⟨.terminal 2, some 6, #[], some (2, 2)⟩, ⟨.terminal 3, some 1, #[], some (3, 3)⟩,
          ⟨.rule 3, some 0, #[10], some (4, 4)⟩, ⟨.terminal 4, some 9, #[], some (4, 4)⟩]
        root := 0 }, ?_, ?_, ?_, ?_⟩
    · decide +kernel
    · rfl
    · rfl
    · with_unfolding_all rfl
  obtain ⟨s, t, hchildren, hs, hfound⟩ : ∃ s t,
      (Site.ofRoot (Parse.ofArena a).root).children = [s, t] ∧ s.tree.id = 1 ∧
      (s.tree.descendantsOf 3).map Tree.id = [2, 5, 6] := by
    rw [hroot]
    refine ⟨_, _, rfl, rfl, ?_⟩
    cbv
  have hmem : s ∈ (Parse.ofArena a).sites :=
    Site.mem_arrivals_of_mem_children (Parse.root_mem_sites _) (hchildren ▸ List.mem_cons_self)
  obtain ⟨hiff, -⟩ := descendantsOf_climb_back h hmem 3
  rw [hfound, hs] at hiff
  refine ⟨a, h, hparents, s, hmem, hs, hfound, hrule, ((hiff 6).mp (by decide)).2, fun habove => ?_⟩
  exact absurd ((hiff 9).mpr ⟨hrule, habove⟩) (by decide)

end Highlighting
