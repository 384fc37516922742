import Mathlib.Order.Bounds.Defs
import Highlighting.Proofs.Starts

/-!
# The spans of nodes

A production gets its span when it ends, from the spans that its children carry by then: the start
of the first child that has one, and the stop of the last. Nothing is looked up again later, neither
in the tree nor in the stream, and every override is placed by what was found in that moment.

What was found is right for two reasons of different kinds. The two searches among the children come
to the first and the last token beneath the node, however many children without tokens stand around
them: this is `Tree.Spanned.span_eq`, an induction over the tree. And the first token has the least
start and the last one the greatest stop because tokens are taken from left to right: this is
`Parse.Sound.inSequence`, which a node has from the stream. Hidden tokens need no exception, since
tokens that follow each other still do so when some of them are left out.

The two together order the nodes as the tokens are ordered. A child lies within its parent, and what
stands further to the left among the children of a production ends before the rest begins.

## Main definitions

* `Parse.tokensBeneath`: the tokens of the stream beneath a node
* `Parse.Reaches`: what the span of a node is, said by the stream

## Main results

* `Parse.Sound.tokensBeneath_eq`: the tokens of a node, in the order of the stream
* `Tree.Spanned.siblings_apart`: siblings do not overlap and stand in order
* `spans_reach_over_tokens`: spans of all nodes of a parse that events describe
-/

namespace Highlighting

/-! ### Nodes and their tokens -/

namespace Tree

variable {t c : Tree} {s u : Span}

theorem tokens_eq_nil_iff : t.tokens = [] ↔ ∀ u ∈ t.nodes, u.isLeaf = false := by
  rw [tokens, List.filterMap_eq_nil_iff]
  refine forall₂_congr fun u _ => ?_
  cases u <;> simp [token?, isLeaf]

theorem Spanned.span_eq_none_iff (h : t.Spanned) :
    t.span = none ↔ ∀ u ∈ t.nodes, u.isLeaf = false := by
  rw [h.span_eq, ← tokens_eq_nil_iff, spanOfTokens]
  cases t.tokens <;> simp

theorem Spanned.exists_ends (h : t.Spanned) (hs : t.span = some s) :
    ∃ x y, t.tokens.head? = some x ∧ t.tokens.getLast? = some y ∧
      s = ⟨x.span.start, y.span.stop⟩ := by
  rw [h.span_eq, spanOfTokens, Option.map₂_eq_some_iff] at hs
  obtain ⟨_, _, hstart, hstop, rfl⟩ := hs
  obtain ⟨x, hx, rfl⟩ := Option.map_eq_some_iff.mp hstart
  obtain ⟨y, hy, rfl⟩ := Option.map_eq_some_iff.mp hstop
  exact ⟨x, y, hx, hy, rfl⟩

/-- What lies beneath a node lies within its span. -/
theorem Spanned.within (h : t.Spanned) (hseq : InSequence t.tokens) (hc : c ∈ t.nodes)
    (hs : c.span = some s) : ∃ u, t.span = some u ∧ u.start ≤ s.start ∧ s.stop ≤ u.stop := by
  obtain ⟨x, y, hx, hy, rfl⟩ := (h.of_mem hc).exists_ends hs
  have hxt : x ∈ t.tokens := tokens_subset hc (List.mem_of_mem_head? hx)
  have hyt : y ∈ t.tokens := tokens_subset hc (List.mem_of_getLast? hy)
  cases hspan : t.span with
  | none =>
    rw [h.span_eq_none_iff, ← tokens_eq_nil_iff] at hspan
    rw [hspan] at hxt
    contradiction
  | some u =>
    obtain ⟨first, last, hfirst, hlast, rfl⟩ := h.exists_ends hspan
    exact ⟨_, rfl, hseq.start_le hfirst hxt, hseq.le_stop hlast hyt⟩

/-- **Siblings do not overlap and stand in order.** Tokens of one child come before those of a later
one, whatever stands between the two. -/
theorem Spanned.siblings_apart (h : t.Spanned) (hseq : InSequence t.tokens) :
    t.children.Pairwise fun c d => ∀ s u, c.span = some s → d.span = some u →
      s.stop < u.start := by
  cases t with
  | leaf n x => exact List.Pairwise.nil
  | node n r sp cs =>
    have hpairwise := hseq.pairwise
    rw [tokens_node, List.pairwise_flatMap] at hpairwise
    refine hpairwise.2.imp_of_mem fun {c d} hc hd hcd s u hs hu => ?_
    obtain ⟨-, y, -, hy, rfl⟩ := (h.of_mem_children hc).exists_ends hs
    obtain ⟨x, -, hx, -, rfl⟩ := (h.of_mem_children hd).exists_ends hu
    exact hcd y (List.mem_of_getLast? hy) x (List.mem_of_mem_head? hx)

/-- What lies beneath one child does not overlap with what lies beneath another one. -/
theorem Spanned.beneath_siblings_apart (h : t.Spanned) (hseq : InSequence t.tokens) {d v w : Tree}
    (hc : c ∈ t.children) (hd : d ∈ t.children) (hne : c ≠ d) (hv : v ∈ c.nodes) (hw : w ∈ d.nodes)
    (hs : v.span = some s) (hu : w.span = some u) : s.stop < u.start ∨ u.stop < s.start := by
  let apart (c d : Tree) : Prop :=
    ∀ s u, c.span = some s → d.span = some u → s.stop < u.start ∨ u.stop < s.start
  have : Std.Symm apart := ⟨fun c d hcd s u hs hu => (hcd u s hu hs).symm⟩
  have hapart : t.children.Pairwise apart :=
    (h.siblings_apart hseq).imp fun hcd s u hs hu => .inl (hcd s u hs hu)
  have htokens : ∀ {c}, c ∈ t.children → InSequence c.tokens := fun hc =>
    hseq.sublist (tokens_sublist_of_mem_nodes (mem_nodes_of_mem_children hc))
  obtain ⟨x, hx, hstart, hstop⟩ := (h.of_mem_children hc).within (htokens hc) hv hs
  obtain ⟨y, hy, hstart', hstop'⟩ := (h.of_mem_children hd).within (htokens hd) hw hu
  have := hapart.forall hc hd hne x y hx hy
  omega

end Tree

/-! ### The stream -/

namespace Parse

/-- The tokens of the stream that are leaves of a subtree, in the order of the stream. -/
def tokensBeneath (p : Parse) (t : Tree) : List Token :=
  (p.stream.map (·.token)).filter (· ∈ t.tokens)

/-- The span is that of a node, said by the stream: it reaches from the first token beneath the node
to the last, and these have the least start and the greatest stop of all tokens beneath it. -/
structure Reaches (p : Parse) (t : Tree) (s : Span) : Prop where
  /-- The span begins with the first token and ends with the last. -/
  exists_ends : ∃ first last, (p.tokensBeneath t).head? = some first ∧
    (p.tokensBeneath t).getLast? = some last ∧ s = ⟨first.span.start, last.span.stop⟩
  /-- No token beneath the node starts before. -/
  least_start : IsLeast {n | ∃ x ∈ t.tokens, x.span.start = n} s.start
  /-- None stops behind. -/
  greatest_stop : IsGreatest {n | ∃ x ∈ t.tokens, x.span.stop = n} s.stop

variable {source : String} {p : Parse} {t : Tree} {s : Span}

/-- **The tokens of a node, in the order of the stream.** Going down the tree from left to right and
along the stream finds them in the same order. -/
theorem Sound.tokensBeneath_eq (h : p.Sound source) (ht : t ∈ p.root.nodes) :
    p.tokensBeneath t = t.tokens := by
  have hsublist : t.tokens.Sublist (p.tokensBeneath t) := by
    have hfilter := (h.tokens_sublist_stream ht).filter (· ∈ t.tokens)
    rwa [List.filter_eq_self.mpr (by simp)] at hfilter
  -- No token is in the stream twice, so the filter lets through no more than the tree has.
  have hlength : (p.tokensBeneath t).length ≤ t.tokens.length := by
    refine (List.subperm_of_subset (h.nodup_tokens.filter _) fun x hx => ?_).length_le
    simpa using (List.mem_filter.mp hx).2
  exact (hsublist.eq_of_length_le hlength).symm

theorem Sound.reaches (h : p.Sound source) (ht : t ∈ p.root.nodes) (hs : t.span = some s) :
    p.Reaches t s := by
  obtain ⟨x, y, hx, hy, rfl⟩ := (h.spanned.of_mem ht).exists_ends hs
  have hseq := h.inSequence ht
  refine ⟨⟨x, y, ?_, ?_, rfl⟩, ⟨⟨x, List.mem_of_mem_head? hx, rfl⟩, ?_⟩,
    ⟨⟨y, List.mem_of_getLast? hy, rfl⟩, ?_⟩⟩
  · rwa [h.tokensBeneath_eq ht]
  · rwa [h.tokensBeneath_eq ht]
  · rintro n ⟨z, hz, rfl⟩
    exact hseq.start_le hx hz
  · rintro n ⟨z, hz, rfl⟩
    exact hseq.le_stop hy hz

end Parse

/-- **Spans reach over the tokens beneath a node.** In a parse that events describe, a node has no
span exactly if neither it nor anything beneath it is a token. Otherwise its span reaches from the
start of the first token of the stream beneath it to the stop of the last one, which are the least
start and the greatest stop of all tokens there. So if a child has a span, then its parent has one
too and it lies within that; and of two children with spans, the one further to the left stops
before the other one starts. -/
theorem spans_reach_over_tokens {source : String} {events : List Event} {p : Parse}
    (h : Parse.ofEvents source events = .ok p) :
    (∀ t ∈ p.root.nodes, (t.span = none ↔ ∀ u ∈ t.nodes, u.isLeaf = false) ∧
        ∀ s, t.span = some s → p.Reaches t s) ∧
      (∀ t ∈ p.root.nodes, ∀ c ∈ t.children, ∀ s, c.span = some s →
        ∃ u, t.span = some u ∧ u.start ≤ s.start ∧ s.stop ≤ u.stop) ∧
      ∀ t ∈ p.root.nodes, t.children.Pairwise fun c d =>
        ∀ s u, c.span = some s → d.span = some u → s.stop < u.start := by
  have hp := Parse.sound_of_ofEvents h
  refine ⟨fun t ht => ⟨(hp.spanned.of_mem ht).span_eq_none_iff, fun s hs => hp.reaches ht hs⟩,
    fun t ht c hc s hs => ?_, fun t ht => ?_⟩
  · exact (hp.spanned.of_mem ht).within (hp.inSequence ht) (Tree.mem_nodes_of_mem_children hc) hs
  · exact (hp.spanned.of_mem ht).siblings_apart (hp.inSequence ht)

/-- The theorem at two names with an empty production and a comment between them. The span of the
whole reaches over both, and neither of them adds to a name. -/
theorem spans_reach_over_tokens_names :
    ∃ p, Parse.ofEvents "a /*x*/ b"
        [.enter 0, .enter 1, .token ⟨7, "a", none⟩, .leave, .enter 2, .leave,
          .hidden ⟨9, "/*x*/", none⟩, .enter 1, .token ⟨7, "b", none⟩, .leave, .leave] = .ok p ∧
      p.root.nodes.map Tree.span
        = [some ⟨0, 8⟩, some ⟨0, 0⟩, some ⟨0, 0⟩, none, some ⟨8, 8⟩, some ⟨8, 8⟩] ∧
      p.Reaches p.root ⟨0, 8⟩ ∧
      p.root.children.Pairwise fun c d =>
        ∀ s u, c.span = some s → d.span = some u → s.stop < u.start := by
  obtain ⟨p, h⟩ : ∃ p, Parse.ofEvents "a /*x*/ b"
      [.enter 0, .enter 1, .token ⟨7, "a", none⟩, .leave, .enter 2, .leave,
        .hidden ⟨9, "/*x*/", none⟩, .enter 1, .token ⟨7, "b", none⟩, .leave, .leave] = .ok p :=
    ⟨_, (Parse.ofEvents_eq_replay _ _).trans rfl⟩
  have hroot : p.root = .node 0 0 (some ⟨0, 8⟩) [.node 1 1 (some ⟨0, 0⟩) [.leaf 2 ⟨7, ⟨0, 0⟩, "a"⟩],
      .node 3 2 none [], .node 4 1 (some ⟨8, 8⟩) [.leaf 5 ⟨7, ⟨8, 8⟩, "b"⟩]] := by
    rw [Parse.ofEvents_eq_replay] at h
    obtain rfl := Except.ok.inj h
    rfl
  obtain ⟨hspans, -, hsiblings⟩ := spans_reach_over_tokens h
  refine ⟨p, h, ?_, (hspans p.root p.root.self_mem_nodes).2 _ ?_, hsiblings _ p.root.self_mem_nodes⟩
  · simp [hroot, Tree.span]
  · rw [hroot]
    rfl

end Highlighting
