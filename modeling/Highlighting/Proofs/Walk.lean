import Mathlib.Data.List.Nodup
import Mathlib.Data.List.Perm.Basic
import Highlighting.Proofs.Tree
import Highlighting.Tree.Walk

/-!
# What a walk tells its listener

A walk runs any function on a state over a tree. What it tells that function does not depend on the
function, so it can be written down once: `Site.notices` is the list that a listener records which
does nothing but record, and `Site.walk_eq_foldl` says that every other listener hears the same.

The pending parts of a walk are a stack. `Site.notices_of_production` is the recursion that the
stack unfolds: a production is entered, then everything beneath its children is heard, then it is
left.

## Main definitions

* `Site.induction`: induction on the sites of a tree, children first
* `Site.notices`: everything a walk tells its listener, in order
* `Site.arrivals`, `Site.departures`: the sites in the order in which they are reached and left
* `Site.Forgets`: once a production has been left, nothing beneath it is heard again

## Main results

* `Site.walk_eq_foldl`: a walk folds its listener over the notices
* `Site.departures_perm`: every production is left once
* `Site.forgets_notices`: a production is left after everything beneath it
-/

namespace Highlighting

namespace Notice

/-- The site that a notice is about. -/
def site : Notice → Site
  | enter s | visit s | leave s => s

/-- The site, when the walk reaches it. -/
def arrived? : Notice → Option Site
  | enter s | visit s => some s
  | leave _ => none

/-- The site of a production that the walk leaves. -/
def left? : Notice → Option Site
  | leave s => some s
  | enter _ | visit _ => none

end Notice

namespace Site

/-- Induction on a site, with the statement at hand for the sites of the children. -/
theorem induction {P : Site → Prop} (leaf : ∀ s : Site, s.tree.isLeaf = true → P s)
    (production : ∀ s : Site, s.tree.isLeaf = false → (∀ c ∈ s.children, P c) → P s)
    (s : Site) : P s := by
  obtain ⟨t, up⟩ := s
  induction t using Tree.induction generalizing up with
  | leaf n t => exact leaf _ rfl
  | node n r sp cs ih =>
    refine production _ rfl fun c hc => ?_
    obtain ⟨d, hd, rfl⟩ := List.mem_map.mp hc
    exact ih d hd _

/-! ### Every listener hears the same -/

section Listeners

variable {σ τ : Type}

/-- A map of states that carries one listener to another carries whole walks along. -/
theorem map_walkPending {listen : σ → Notice → σ} {listen' : τ → Notice → τ} {g : σ → τ}
    (h : ∀ state n, g (listen state n) = listen' (g state) n) (pending : List Pending)
    (state : σ) : g (walkPending listen pending state) = walkPending listen' pending (g state) := by
  fun_induction walkPending listen pending state with
  | case1 state => rw [walkPending]
  | case2 state s rest ih => rw [walkPending, ← h, ih]
  | case3 state s rest hs ih => rw [walkPending, if_pos hs, ← h, ih]
  | case4 state s rest hs ih => rw [walkPending, if_neg hs, ← h, ih]

theorem walkPending_append (listen : σ → Notice → σ) (ps qs : List Pending) (state : σ) :
    walkPending listen (ps ++ qs) state
      = walkPending listen qs (walkPending listen ps state) := by
  fun_induction walkPending listen ps state with
  | case1 state => rw [List.nil_append]
  | case2 state s rest ih => rw [List.cons_append, walkPending, ih]
  | case3 state s rest hs ih => rw [List.cons_append, walkPending, if_pos hs, ih]
  | case4 state s rest hs ih =>
    rw [List.cons_append, walkPending, if_neg hs, ← ih, List.append_assoc, List.cons_append]

/-- What the pending parts of a walk still tell, in order. -/
def heard (pending : List Pending) : List Notice :=
  (walkPending (fun told n => n :: told) pending []).reverse

/-- Everything that a walk over a site tells its listener, in order. -/
def notices (s : Site) : List Notice :=
  (s.walk (fun told n => n :: told) []).reverse

theorem walkPending_eq_foldl (listen : σ → Notice → σ) (pending : List Pending) (state : σ) :
    walkPending listen pending state = (heard pending).foldl listen state := by
  -- The recording listener simulates every other one: replay what it has recorded so far.
  have key := @map_walkPending _ _ (fun told n => n :: told) listen
    (fun told => told.reverse.foldl listen state) (by simp) pending []
  simpa [heard] using key.symm

/-- **Every listener hears the same.** A walk folds its listener over the notices of the site. -/
theorem walk_eq_foldl (listen : σ → Notice → σ) (state : σ) (s : Site) :
    s.walk listen state = s.notices.foldl listen state :=
  walkPending_eq_foldl listen [.whole s] state

end Listeners

/-! ### The recursion behind the stack -/

theorem heard_append (ps qs : List Pending) : heard (ps ++ qs) = heard ps ++ heard qs := by
  have key := walkPending_eq_foldl (fun told n => n :: told) qs
    (walkPending (fun told n => n :: told) ps [])
  rw [heard, walkPending_append, key, List.foldl_flip_cons_eq_append', List.reverse_append,
    List.reverse_reverse]
  rfl

theorem heard_whole (ss : List Site) : heard (ss.map .whole) = ss.flatMap notices := by
  induction ss with
  | nil => simp [heard, walkPending]
  | cons s ss ih =>
    rw [List.map_cons, ← List.singleton_append, heard_append, ih, List.flatMap_cons]
    rfl

theorem notices_of_isLeaf {s : Site} (h : s.tree.isLeaf = true) : s.notices = [.visit s] := by
  simp [notices, walk, walkPending, h]

/-- A production is entered, then its children are walked over, then it is left. -/
theorem notices_of_production {s : Site} (h : s.tree.isLeaf = false) :
    s.notices = .enter s :: s.children.flatMap notices ++ [.leave s] := by
  have key : heard (s.children.map .whole ++ [.leaving s])
      = s.children.flatMap notices ++ [.leave s] := by
    rw [heard_append, heard_whole]
    simp [heard, walkPending]
  rw [List.cons_append, ← key, notices, walk, walkPending, if_neg (by simp [h]),
    walkPending_eq_foldl, List.foldl_flip_cons_eq_append', List.reverse_append,
    List.reverse_reverse]
  rfl

theorem site_mem_nodes {s : Site} {n : Notice} (h : n ∈ s.notices) :
    n.site.tree ∈ s.tree.nodes := by
  induction s using induction with
  | leaf s hs =>
    rw [notices_of_isLeaf hs, List.mem_singleton] at h
    rw [h]
    exact s.tree.self_mem_nodes
  | production s hs ih =>
    rw [notices_of_production hs, List.mem_append, List.mem_cons, List.mem_flatMap,
      List.mem_singleton] at h
    rcases h with (rfl | ⟨c, hc, h⟩) | rfl
    · exact s.tree.self_mem_nodes
    · obtain ⟨d, hd, rfl⟩ := List.mem_map.mp hc
      exact Tree.mem_nodes.mpr (.inr ⟨d, hd, ih _ hc h⟩)
    · exact s.tree.self_mem_nodes

/-! ### Sites in the order in which they are reached and left -/

/-- The sites in the order in which a walk reaches them. -/
def arrivals (s : Site) : List Site := s.notices.filterMap Notice.arrived?

/-- The productions in the order in which a walk leaves them. -/
def departures (s : Site) : List Site := s.notices.filterMap Notice.left?

theorem filterMap_notices_of_isLeaf {α : Type} (f : Notice → Option α) {s : Site}
    (h : s.tree.isLeaf = true) : s.notices.filterMap f = (f (.visit s)).toList := by
  rw [notices_of_isLeaf h]
  cases hf : f (.visit s) <;> simp [hf]

theorem filterMap_notices_of_production {α : Type} (f : Notice → Option α) {s : Site}
    (h : s.tree.isLeaf = false) :
    s.notices.filterMap f = (f (.enter s)).toList
      ++ s.children.flatMap (fun c => c.notices.filterMap f) ++ (f (.leave s)).toList := by
  rw [notices_of_production h, List.filterMap_append, List.filterMap_cons, List.filterMap_flatMap]
  cases hf : f (.enter s) <;> cases hg : f (.leave s) <;> simp [hg]

theorem isLeaf_of_mem_children {s c : Site} (hc : c ∈ s.children) : s.tree.isLeaf = false := by
  obtain ⟨_ | _, up⟩ := s
  · contradiction
  · rfl

theorem arrivals_of_isLeaf {s : Site} (h : s.tree.isLeaf = true) : s.arrivals = [s] := by
  rw [arrivals, filterMap_notices_of_isLeaf _ h]
  rfl

theorem arrivals_of_production {s : Site} (h : s.tree.isLeaf = false) :
    s.arrivals = s :: s.children.flatMap arrivals := by
  rw [arrivals, filterMap_notices_of_production _ h]
  exact List.append_nil _

theorem map_tree_arrivals (s : Site) : s.arrivals.map (·.tree) = s.tree.nodes := by
  induction s using induction with
  | leaf s hs =>
    obtain ⟨⟨n, t⟩ | _, up⟩ := s
    · rw [arrivals_of_isLeaf hs, Tree.nodes_leaf]
      rfl
    · contradiction
  | production s hs ih =>
    rw [arrivals_of_production hs, List.map_cons, List.map_flatMap, List.flatMap_congr ih, children,
      List.flatMap_map, Tree.nodes, Tree.descendants_eq_flatMap]

theorem departures_of_isLeaf {s : Site} (h : s.tree.isLeaf = true) : s.departures = [] := by
  rw [departures, filterMap_notices_of_isLeaf _ h]
  rfl

theorem departures_of_production {s : Site} (h : s.tree.isLeaf = false) :
    s.departures = s.children.flatMap departures ++ [s] := by
  rw [departures, filterMap_notices_of_production _ h]
  rfl

/-- **Every production is left once.** -/
theorem departures_perm (s : Site) :
    (s.departures.map Site.tree).Perm (s.tree.nodes.filter fun t => !t.isLeaf) := by
  induction s using induction with
  | leaf s hs =>
    obtain ⟨⟨n, t⟩ | _, up⟩ := s
    · rw [departures_of_isLeaf hs, Tree.nodes_leaf]
      rfl
    · contradiction
  | production s hs ih =>
    rw [departures_of_production hs, Tree.nodes, Tree.descendants_eq_flatMap, List.map_append,
      List.map_flatMap, List.filter_cons_of_pos (by simp [hs]), List.filter_flatMap]
    refine (List.perm_append_singleton s.tree _).trans (List.Perm.cons _ ?_)
    have hchildren := List.Perm.flatMap_left s.children ih
    rw [children, List.flatMap_map, List.flatMap_map] at hchildren
    rw [children, List.flatMap_map]
    exact hchildren

theorem tree_mem_nodes_of_mem_departures {s n : Site} (h : n ∈ s.departures) :
    n.tree ∈ s.tree.nodes :=
  (List.mem_filter.mp (s.departures_perm.subset (List.mem_map_of_mem h))).1

/-! ### Nothing is heard of a production that has been left -/

/-- Once a production has been left, there is no notice of it or of anything beneath it. -/
def Forgets (told : List Notice) : Prop :=
  told.Pairwise fun a b => ∀ s, a = .leave s → b.site.tree ∉ s.tree.nodes

/-- Creation numbers tell nodes apart, so a walk never comes back to a part of the tree. -/
theorem forgets_notices {s : Site} (h : (s.tree.nodes.map Tree.id).Nodup) :
    Forgets s.notices := by
  induction s using induction with
  | leaf s hs =>
    rw [notices_of_isLeaf hs]
    exact List.pairwise_singleton _ _
  | production s hs ih =>
    rw [Tree.nodes, Tree.descendants_eq_flatMap, List.map_cons, List.map_flatMap,
      List.nodup_cons, List.nodup_flatMap] at h
    obtain ⟨hself, hchild, hdisj⟩ := h
    have htop : ∀ {a : Notice} {u : Site} {c : Tree}, c ∈ s.tree.children →
        a ∈ (Site.mk c (s.tree :: s.ancestors)).notices → a = .leave u → u.tree ∈ c.nodes := by
      intro a u c hc ha hu
      rw [hu] at ha
      exact site_mem_nodes ha
    rw [Forgets, notices_of_production hs, List.cons_append, List.pairwise_cons,
      List.pairwise_append, List.pairwise_flatMap, children, List.pairwise_map]
    refine ⟨fun b _ u hu => by contradiction, ⟨?_, ?_⟩, List.pairwise_singleton _ _, ?_⟩
    · intro c hc
      obtain ⟨d, hd, rfl⟩ := List.mem_map.mp hc
      exact ih _ hc (hchild d hd)
    · -- Two children share no number, so the later one is not beneath the earlier one.
      refine hdisj.imp_of_mem fun {c d} hc _ hcd a ha b hb u hu hmem => ?_
      have hb' : b.site.tree ∈ d.nodes := site_mem_nodes hb
      have hb'' : b.site.tree ∈ c.nodes := Tree.nodes_subset hmem (htop hc ha hu)
      exact hcd (List.mem_map_of_mem hb'') (List.mem_map_of_mem hb')
    · -- The production itself is not beneath one of its children.
      intro a ha b hb u hu hmem
      obtain ⟨c', hc', ha⟩ := List.mem_flatMap.mp ha
      obtain ⟨c, hc, rfl⟩ := List.mem_map.mp hc'
      obtain rfl := List.mem_singleton.mp hb
      have hs' : s.tree ∈ c.nodes := Tree.nodes_subset hmem (htop hc ha hu)
      exact hself (List.mem_flatMap.mpr ⟨c, hc, List.mem_map_of_mem hs'⟩)

end Site

end Highlighting
