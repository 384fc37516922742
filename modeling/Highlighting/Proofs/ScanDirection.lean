import Mathlib.Data.Finset.Card
import Mathlib.Data.List.Flatten
import Highlighting.Proofs.EngineHistory
import Highlighting.Proofs.Starts

/-!
# The direction of a scan

A scan that gives every match the same category may go from left to right or from right to left, and
may end with the first mark it makes. This module says what difference that makes to the overrides:
none, unless the scan ends early.

An accepted match is not entered, so what such a scan marks is the topmost matches,
`Tree.topmost`, and no two of them lie one above the other. The tokens beneath them are then some of
the tokens beneath the node, in order. A match that has a span starts with its first token, and one
that has none is not marked. Since the tokens of a parse start further and further to the right, so
do the marks: the order in which they are made is the order of their starts, or its reverse, and no
two of them replace each other in a set.

Each of these conditions is needed. If accepted matches were entered, a production and its first
child would be marked at one offset, and the direction would decide which of them stays.

## Main definitions

* `Tree.topmost`: the topmost nodes that pass a test
* `Scan.candidates`: what a scan may mark, in source order

## Main results

* `Scan.marks_eq`: the marks of a scan, in terms of what it may mark
* `Scan.pairwise_candidates`: what may be marked starts further and further to the right
* `OverrideSet.extend_same_of_perm`: overrides with different starts may be added in any order
* `Scan.direction_matters_for_first_only`
-/

namespace Highlighting

/-! ### Topmost nodes -/

namespace Tree

mutual

/-- The topmost nodes of a tree that pass a test, in source order. -/
def topmost (test : Tree → Bool) : Tree → List Tree
  | .leaf n token => if test (.leaf n token) then [.leaf n token] else []
  | .node n r s cs => if test (.node n r s cs) then [.node n r s cs] else topmosts test cs

/-- The topmost nodes of a forest that pass a test, in source order. -/
def topmosts (test : Tree → Bool) : List Tree → List Tree
  | [] => []
  | t :: ts => topmost test t ++ topmosts test ts

end

variable {test : Tree → Bool} {t u : Tree}

theorem topmosts_eq_flatMap (test : Tree → Bool) (ts : List Tree) :
    topmosts test ts = ts.flatMap (topmost test) := by
  induction ts with
  | nil => rw [topmosts, List.flatMap_nil]
  | cons t ts ih => rw [topmosts, ih, List.flatMap_cons]

theorem topmost_of_pos (h : test t = true) : t.topmost test = [t] := by
  cases t <;> rw [topmost, if_pos h]

theorem topmost_of_neg (h : test t = false) :
    t.topmost test = t.children.flatMap (topmost test) := by
  cases t with
  | leaf n token => simp [topmost, h, children]
  | node n r s cs => simp [topmost, h, children, topmosts_eq_flatMap]

theorem mem_nodes_of_mem_topmost (h : u ∈ t.topmost test) : u ∈ t.nodes := by
  induction t using induction with
  | leaf n token =>
    cases htest : test (.leaf n token) with
    | true => simpa [topmost_of_pos htest] using h
    | false => simp [topmost_of_neg htest, children] at h
  | node n r s cs ih =>
    cases htest : test (.node n r s cs) with
    | true =>
      rw [topmost_of_pos htest, List.mem_singleton] at h
      rw [h]
      exact self_mem_nodes _
    | false =>
      rw [topmost_of_neg htest] at h
      obtain ⟨c, hc, hu⟩ := List.mem_flatMap.mp h
      exact mem_nodes.mpr (.inr ⟨c, hc, ih c hc hu⟩)

/-- The tokens beneath the topmost nodes are some of the tokens of the tree, in order: no token is
beneath two of them. -/
theorem tokens_topmost_sublist (test : Tree → Bool) (t : Tree) :
    ((t.topmost test).flatMap tokens).Sublist t.tokens := by
  induction t using induction with
  | leaf n token =>
    cases htest : test (.leaf n token) with
    | true => rw [topmost_of_pos htest, List.flatMap_singleton]
    | false => simp [topmost_of_neg htest, children]
  | node n r s cs ih =>
    cases htest : test (.node n r s cs) with
    | true => rw [topmost_of_pos htest, List.flatMap_singleton]
    | false =>
      rw [topmost_of_neg htest, List.flatMap_assoc, tokens_node]
      exact List.Sublist.flatMap_right cs ih

theorem tokens_flatMap_topmost_sublist (test : Tree → Bool) (t : Tree) :
    ((t.children.flatMap (topmost test)).flatMap tokens).Sublist t.tokens := by
  cases t with
  | leaf n token => exact List.nil_sublist _
  | node n r s cs =>
    rw [children, List.flatMap_assoc, tokens_node]
    exact List.Sublist.flatMap_right cs fun c _ => tokens_topmost_sublist test c

/-- The offset at which a node starts; a node without tokens starts nowhere. -/
def start? (t : Tree) : Option Nat := t.span.map (·.start)

theorem Spanned.start?_eq (h : t.Spanned) : t.start? = t.tokens.head?.map (·.span.start) := by
  rw [start?, h.span_eq, spanOfTokens]
  cases t.tokens with
  | nil => rfl
  | cons x xs => simp [List.getLast?_cons]

/-- Nodes start with the first tokens beneath them. -/
theorem starts_sublist {ts : List Tree} (h : ∀ t ∈ ts, t.Spanned) :
    (ts.filterMap start?).Sublist ((ts.flatMap tokens).map (·.span.start)) := by
  induction ts with
  | nil => exact List.Sublist.refl _
  | cons t ts ih =>
    rw [List.forall_mem_cons] at h
    have hstart := h.1.start?_eq
    rw [List.flatMap_cons, List.map_append]
    cases htokens : t.tokens with
    | nil =>
      rw [htokens] at hstart
      rw [List.filterMap_cons_none hstart]
      exact ih h.2
    | cons x xs =>
      rw [htokens] at hstart
      rw [List.filterMap_cons_some hstart]
      exact ((ih h.2).trans (List.sublist_append_right _ _)).cons_cons _

end Tree

/-! ### What a scan may mark -/

namespace Scan

/-- Whether a node matches. -/
def matchesTree (scan : Scan) (t : Tree) : Bool := (scan.hit? t).isSome

/-- A list in the direction of the scan. -/
def turned {α : Type} (scan : Scan) (xs : List α) : List α :=
  if scan.reversed then xs.reverse else xs

/-- As much of a list as the scan is for. -/
def cut {α : Type} (scan : Scan) (xs : List α) : List α :=
  if scan.firstOnly then xs.take 1 else xs

/-- What a scan beneath a node may mark if it gives every match the same category, in source
order. -/
def candidates (scan : Scan) (origin : RuleId) (category : Category) (t : Tree) : List Override :=
  (t.children.flatMap (Tree.topmost scan.matchesTree)).filterMap
    (Override.ofTree? · category origin)

variable {scan : Scan} {origin : RuleId} {category : Category}

/-- Turning siblings around, and the matches of each of them, turns all their matches around. -/
theorem turned_flatMap {α β : Type} (f : α → List β) (xs : List α) :
    (scan.turned xs).flatMap (fun x => scan.turned (f x)) = scan.turned (xs.flatMap f) := by
  by_cases h : scan.reversed = true
  · simp [turned, h, List.reverse_flatMap, Function.comp_def]
  · simp [turned, h]

theorem turned_filterMap {α β : Type} (f : α → Option β) (xs : List α) :
    (scan.turned xs).filterMap f = scan.turned (xs.filterMap f) := by
  by_cases h : scan.reversed = true
  · simp [turned, h, List.filterMap_reverse]
  · simp [turned, h]

theorem topmost_of_hit? {t : Tree} {hit : Hit} (h : scan.hit? t = some hit) :
    t.topmost scan.matchesTree = [t] :=
  Tree.topmost_of_pos (by rw [matchesTree, h, Option.isSome_some])

/-- The marks of a scan that accepts every match, from the nodes still to visit on. -/
theorem search_accepting (pending : List Tree) (state : Unit) (made : List Override) :
    (scan.search origin (fun state _ => (some category, state)) pending state made).1
      = made.reverse ++ scan.cut
        ((pending.flatMap fun t => scan.turned (t.topmost scan.matchesTree)).filterMap
          (Override.ofTree? · category origin)) := by
  fun_induction search scan origin (fun state _ => (some category, state)) pending state made with
  | case1 state made => simp [cut]
  | case2 t rest state made hhit ih =>
    have htop : (scan.inOrder t.children).flatMap
        (fun c => scan.turned (c.topmost scan.matchesTree))
          = scan.turned (t.topmost scan.matchesTree) := by
      rw [Tree.topmost_of_neg (by simp [matchesTree, hhit])]
      exact turned_flatMap _ _
    rw [ih, List.flatMap_append, htop, List.flatMap_cons]
  | case3 t rest state made hit hhit state' hanswer ih => simp at hanswer
  | case4 t rest state made hit hhit category' state' hanswer hmark ih =>
    obtain ⟨rfl, rfl⟩ : category = category' ∧ state = state' := by simpa using hanswer
    rw [ih, List.flatMap_cons, topmost_of_hit? hhit]
    simp [turned, hmark]
  | case5 t rest state made hit hhit category' state' hanswer mark hmark hfirst =>
    obtain ⟨rfl, rfl⟩ : category = category' ∧ state = state' := by simpa using hanswer
    rw [List.flatMap_cons, topmost_of_hit? hhit]
    simp [turned, hmark, cut, hfirst]
  | case6 t rest state made hit hhit category' state' hanswer mark hmark hfirst ih =>
    obtain ⟨rfl, rfl⟩ : category = category' ∧ state = state' := by simpa using hanswer
    rw [ih, List.flatMap_cons, topmost_of_hit? hhit]
    simp [turned, hmark, cut, hfirst]

/-- **The marks of a scan** that gives every match the same category: what it may mark, in the
direction of the scan, and no more than it is for. -/
theorem marks_eq (scan : Scan) (origin : RuleId) (category : Category) (t : Tree) :
    scan.marks origin category t
      = scan.cut (scan.turned (scan.candidates origin category t)) := by
  rw [marks, run, search_accepting, candidates, ← turned_filterMap, ← turned_flatMap]
  rfl

theorem map_start_candidates (t : Tree) :
    (scan.candidates origin category t).map (·.span.start)
      = (t.children.flatMap (Tree.topmost scan.matchesTree)).filterMap Tree.start? := by
  rw [candidates, List.map_filterMap]
  congr 1
  funext u
  rw [Override.ofTree?, Option.map_map]
  rfl

/-- **What may be marked starts further and further to the right**, if the tokens beneath the node
do. -/
theorem pairwise_candidates {t : Tree} (ht : t.Spanned)
    (hsorted : (t.tokens.map (·.span.start)).Pairwise (· < ·)) :
    (scan.candidates origin category t).Pairwise fun o u => o.span.start < u.span.start := by
  have hspanned : ∀ u ∈ t.children.flatMap (Tree.topmost scan.matchesTree), u.Spanned := by
    intro u hu
    obtain ⟨c, hc, hu⟩ := List.mem_flatMap.mp hu
    exact (ht.of_mem_children hc).of_mem (Tree.mem_nodes_of_mem_topmost hu)
  have htokens := Tree.tokens_flatMap_topmost_sublist scan.matchesTree t
  rw [← List.pairwise_map, map_start_candidates]
  exact hsorted.sublist ((Tree.starts_sublist hspanned).trans (htokens.map _))

end Scan

/-! ### Sets -/

/-- **Overrides with different starts may be added in any order.** -/
theorem OverrideSet.extend_same_of_perm (s : OverrideSet) {os us : List Override}
    (hperm : os.Perm us) (hnodup : (os.map (·.span.start)).Nodup) :
    (s.extend os).Same (s.extend us) := by
  have hnodup' : (us.map (·.span.start)).Nodup := (hperm.map _).nodup_iff.mp hnodup
  refine same_iff.mpr fun offset => ?_
  rw [get?_extend, get?_extend]
  congr 1
  ext o
  rw [lastAt_eq_some_iff hnodup, lastAt_eq_some_iff hnodup', hperm.mem_iff]

/-- The tokens beneath a node of a parse start further and further to the right. -/
theorem Parse.Sound.pairwise_starts {source : String} {p : Parse} (h : p.Sound source) {t : Tree}
    (ht : t ∈ p.root.nodes) : (t.tokens.map (·.span.start)).Pairwise (· < ·) :=
  (h.inSequence ht).pairwise_starts

/-- **The direction of a scan matters for the first match only.** Beneath a node of a parse, a scan
that gives every match the same category marks at pairwise different offsets, so that it makes as
many marks as it marks offsets. These are counted and inserted. Turned around, it makes as many
marks and leaves the same overrides behind. If it is for the first match only, it makes none of
these marks if there are none, and else exactly one: the one that starts first, or, turned around,
the one that starts last. -/
theorem Scan.direction_matters_for_first_only {source : String} {events : List Event} {p : Parse}
    (h : Parse.ofEvents source events = .ok p) {t : Tree} (ht : t ∈ p.root.nodes)
    (productions : List RuleId) (terminal : Option TokenKind) (origin : RuleId)
    (category : Category) (overrides : OverrideSet) :
    let marks (reversed firstOnly : Bool) :=
      Scan.marks ⟨productions, terminal, reversed, firstOnly⟩ origin category t
    (∀ reversed, ((marks reversed false).map (·.span.start)).Nodup ∧
        (marks reversed false).length
          = ((marks reversed false).map (·.span.start)).toFinset.card) ∧
      (∀ reversed firstOnly, Scan.assign ⟨productions, terminal, reversed, firstOnly⟩ origin
          category t overrides
        = ((marks reversed firstOnly).length, overrides.extend (marks reversed firstOnly))) ∧
      (marks true false).length = (marks false false).length ∧
      (overrides.extend (marks true false)).Same (overrides.extend (marks false false)) ∧
      (marks false false = [] → ∀ reversed, marks reversed true = []) ∧
      (marks false false ≠ [] →
        (∃ o ∈ marks false false, marks false true = [o] ∧
          ∀ u ∈ marks false false, o.span.start ≤ u.span.start) ∧
        ∃ o ∈ marks false false, marks true true = [o] ∧
          ∀ u ∈ marks false false, u.span.start ≤ o.span.start) := by
  intro marks
  have hp := Parse.sound_of_ofEvents h
  -- All four scans choose from the same candidates, which are ordered by their starts.
  let all : List Override :=
    Scan.candidates ⟨productions, terminal, false, false⟩ origin category t
  have hall : all.Pairwise fun o u => o.span.start < u.span.start :=
    Scan.pairwise_candidates (hp.spanned.of_mem ht) (hp.pairwise_starts ht)
  have hff : marks false false = all := Scan.marks_eq _ _ _ _
  have htf : marks true false = all.reverse := Scan.marks_eq _ _ _ _
  have hft : marks false true = all.take 1 := Scan.marks_eq _ _ _ _
  have htt : marks true true = all.reverse.take 1 := Scan.marks_eq _ _ _ _
  clear_value all
  have hnodup : (all.map (·.span.start)).Nodup := by
    rw [List.Nodup, List.pairwise_map]
    exact hall.imp Nat.ne_of_lt
  have hnodup' : (all.reverse.map (·.span.start)).Nodup := by
    rwa [List.map_reverse, List.nodup_reverse]
  rw [hff, htf, hft, htt]
  refine ⟨?_, fun _ _ => rfl, List.length_reverse, ?_, ?_, ?_⟩
  · rintro (_ | _)
    · rw [hff, List.toFinset_card_of_nodup hnodup, List.length_map]
      exact ⟨hnodup, rfl⟩
    · rw [htf, List.toFinset_card_of_nodup hnodup', List.length_map]
      exact ⟨hnodup', rfl⟩
  · exact overrides.extend_same_of_perm all.reverse_perm hnodup'
  · rintro rfl (_ | _)
    · exact hft
    · exact htt
  · intro hne
    constructor
    · obtain ⟨o, rest, rfl⟩ := List.exists_cons_of_ne_nil hne
      refine ⟨o, List.mem_cons_self, rfl, List.forall_mem_cons.mpr ⟨Nat.le_refl _, ?_⟩⟩
      exact fun u hu => Nat.le_of_lt ((List.pairwise_cons.mp hall).1 u hu)
    · obtain ⟨rest, o, hrest⟩ := all.eq_nil_or_concat.resolve_left hne
      rw [List.concat_eq_append] at hrest
      subst hrest
      rw [List.pairwise_append] at hall
      refine ⟨o, by simp, by simp, List.forall_mem_append.mpr ⟨fun u hu => ?_, by simp⟩⟩
      exact Nat.le_of_lt (hall.2.2 u hu o List.mem_cons_self)

/-- The theorem at three names, with a comma after the first of them that also matches and a
production without tokens in front. The names are found from both ends. -/
theorem Scan.direction_matters_for_first_only_names :
    ∃ p, Parse.ofEvents "a, b c"
        [.enter 1, .enter 2, .leave, .enter 3, .token ⟨1, "a", none⟩, .leave, .token ⟨2, ",", none⟩,
          .enter 3, .token ⟨1, "b", none⟩, .token ⟨1, "c", none⟩, .leave, .leave] = .ok p ∧
      p.root ∈ p.root.nodes ∧
      let marks (reversed firstOnly : Bool) :=
        Scan.marks ⟨[2, 3], some 2, reversed, firstOnly⟩ 1 .keyword p.root
      (marks false false).map (·.span) = [⟨0, 0⟩, ⟨1, 1⟩, ⟨3, 5⟩] ∧
        ((∅ : OverrideSet).extend (marks true false)).Same
          ((∅ : OverrideSet).extend (marks false false)) ∧
        ∃ o ∈ marks false false, marks true true = [o] ∧
          ∀ u ∈ marks false false, u.span.start ≤ o.span.start := by
  obtain ⟨p, h⟩ : ∃ p, Parse.ofEvents "a, b c"
      [.enter 1, .enter 2, .leave, .enter 3, .token ⟨1, "a", none⟩, .leave, .token ⟨2, ",", none⟩,
        .enter 3, .token ⟨1, "b", none⟩, .token ⟨1, "c", none⟩, .leave, .leave] = .ok p :=
    ⟨_, (Parse.ofEvents_eq_replay _ _).trans rfl⟩
  have hroot : p.root = .node 0 1 (some ⟨0, 5⟩) [.node 1 2 none [],
      .node 2 3 (some ⟨0, 0⟩) [.leaf 3 ⟨1, ⟨0, 0⟩, "a"⟩], .leaf 4 ⟨2, ⟨1, 1⟩, ","⟩,
      .node 5 3 (some ⟨3, 5⟩) [.leaf 6 ⟨1, ⟨3, 3⟩, "b"⟩, .leaf 7 ⟨1, ⟨5, 5⟩, "c"⟩]] := by
    rw [Parse.ofEvents_eq_replay] at h
    obtain rfl := Except.ok.inj h
    rfl
  obtain ⟨-, -, -, hsame, -, hfirst⟩ := Scan.direction_matters_for_first_only h
    p.root.self_mem_nodes [2, 3] (some 2) 1 .keyword ∅
  have hmarks : (Scan.marks ⟨[2, 3], some 2, false, false⟩ 1 .keyword p.root).map (·.span)
      = [⟨0, 0⟩, ⟨1, 1⟩, ⟨3, 5⟩] := by
    rw [hroot]
    cbv
  refine ⟨p, h, p.root.self_mem_nodes, hmarks, hsame, (hfirst fun hnil => ?_).2⟩
  have hspans := hmarks.symm.trans (congrArg (List.map (·.span)) hnil)
  contradiction

end Highlighting
