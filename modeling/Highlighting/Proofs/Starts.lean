import Highlighting.Proofs.Marks
import Highlighting.Proofs.Parses

/-!
# Where tokens start

An override is looked up by the start of a token, so the starts of the tokens of a tree are what
the marks of a walk are measured by. Two facts hold for every parse that is made from events. No two
tokens start at the same offset, and every offset that a rule marks is the start of a token beneath
its production: the first one of what is marked. The first of them, and all else about the order of
tokens, comes from one property of the stream that passes to every part of it, `InSequence`.

## Main definitions

* `InSequence`: tokens that follow each other
* `Tree.StartsAt`: some token of the tree starts at an offset
* `Tree.Distinct`: no two tokens of the tree start at the same offset

## Main results

* `MarksBeneath.startsAt`: what is marked beneath a production starts with a token beneath it
* `Parse.Sound.inSequence`: the tokens beneath a node follow each other
* `Parse.Sound.distinct`: the tokens of a parse start at different offsets
-/

namespace Highlighting

/-! ### Tokens that follow each other -/

/-- The tokens cover characters, and each of them begins behind the end of the one before it. -/
structure InSequence (ts : List Token) : Prop where
  /-- A token is not empty. -/
  covers : ∀ x ∈ ts, x.span.start ≤ x.span.stop
  /-- A token ends before the later ones begin. -/
  pairwise : ts.Pairwise fun x y => x.span.stop < y.span.start

namespace InSequence

variable {ts us : List Token} {x y : Token}

theorem sublist (h : InSequence ts) (hus : us.Sublist ts) : InSequence us :=
  ⟨fun x hx => h.covers x (hus.subset hx), h.pairwise.sublist hus⟩

theorem pairwise_starts (h : InSequence ts) : (ts.map (·.span.start)).Pairwise (· < ·) := by
  rw [List.pairwise_map]
  exact h.pairwise.imp_of_mem fun hx _ hlt => Nat.lt_of_le_of_lt (h.covers _ hx) hlt

theorem pairwise_stops (h : InSequence ts) : (ts.map (·.span.stop)).Pairwise (· < ·) := by
  rw [List.pairwise_map]
  exact h.pairwise.imp_of_mem fun _ hy hlt => Nat.lt_of_lt_of_le hlt (h.covers _ hy)

/-- The first token has the least start. -/
theorem start_le (h : InSequence ts) (hx : ts.head? = some x) (hy : y ∈ ts) :
    x.span.start ≤ y.span.start := by
  obtain ⟨rest, rfl⟩ := List.head?_eq_some_iff.mp hx
  rcases List.mem_cons.mp hy with rfl | hy
  · exact Nat.le_refl _
  · have hcovers := h.covers x List.mem_cons_self
    have hlt := (List.pairwise_cons.mp h.pairwise).1 y hy
    omega

/-- The last token has the greatest stop. -/
theorem le_stop (h : InSequence ts) (hx : ts.getLast? = some x) (hy : y ∈ ts) :
    y.span.stop ≤ x.span.stop := by
  obtain ⟨rest, rfl⟩ := List.getLast?_eq_some_iff.mp hx
  rcases List.mem_append.mp hy with hy | hy
  · have hcovers := h.covers x List.mem_concat_self
    have hlt := (List.pairwise_append.mp h.pairwise).2.2 y hy x (List.mem_singleton_self x)
    omega
  · obtain rfl := List.mem_singleton.mp hy
    exact Nat.le_refl _

end InSequence

/-! ### Starts -/

namespace Tree

/-- Some token of the tree starts at the offset. -/
def StartsAt (t : Tree) (offset : Nat) : Prop := ∃ x ∈ t.tokens, x.span.start = offset

/-- No two tokens of the tree start at the same offset. -/
def Distinct (t : Tree) : Prop := (t.tokens.map (·.span.start)).Nodup

theorem startsAt_iff_mem {t : Tree} {offset : Nat} :
    t.StartsAt offset ↔ offset ∈ t.tokens.map (·.span.start) := by
  rw [List.mem_map]
  rfl

/-- Then the children have distinct starts too, and no two of them share one. -/
theorem Distinct.children {t : Tree} (h : t.Distinct) :
    (∀ c ∈ t.children, c.Distinct) ∧
      t.children.Pairwise fun c d => ∀ offset, c.StartsAt offset → ¬ d.StartsAt offset := by
  cases t with
  | leaf n x => simp [Tree.children]
  | node n r s cs =>
    rw [Distinct, tokens_node, List.map_flatMap, List.nodup_flatMap] at h
    refine ⟨h.1, h.2.imp fun {c d} hcd offset hc hd => ?_⟩
    exact hcd (startsAt_iff_mem.mp hc) (startsAt_iff_mem.mp hd)

theorem StartsAt.of_mem_nodes {t u : Tree} {offset : Nat} (h : u.StartsAt offset)
    (hu : u ∈ t.nodes) : t.StartsAt offset := by
  obtain ⟨x, hx, hstart⟩ := h
  exact ⟨x, tokens_subset hu hx, hstart⟩

end Tree

/-- A production that marks an offset has a token there beneath it. -/
theorem MarksBeneath.startsAt {t : Tree} {os : List Override} (h : MarksBeneath t os)
    (ht : t.Spanned) {o : Override} (ho : o ∈ os) : t.StartsAt o.span.start := by
  obtain ⟨d, hd, hspan⟩ := h o ho
  have hd : d ∈ t.nodes := List.mem_cons_of_mem _ hd
  obtain ⟨x, hx, hstart⟩ := (ht.of_mem hd).exists_token hspan
  exact Tree.StartsAt.of_mem_nodes ⟨x, hx, hstart⟩ hd

/-- What a walk marks is the start of a token. -/
theorem Site.startsAt_of_mem_marks {marks : Site → List Override}
    (hmarks : ∀ n, MarksBeneath n.tree (marks n)) {s n : Site} (hs : s.tree.Spanned)
    (hn : n ∈ s.departures) {o : Override} (ho : o ∈ marks n) : s.tree.StartsAt o.span.start := by
  have hn := tree_mem_nodes_of_mem_departures hn
  exact (MarksBeneath.startsAt (hmarks n) (hs.of_mem hn) ho).of_mem_nodes hn

namespace Parse

variable {source : String} {p : Parse}

theorem Sound.map_token_filter (h : p.Sound source) :
    (p.stream.filter (·.parent.isSome)).map (·.token) = p.root.tokens := by
  rw [h.visible_eq, Tree.map_token_visible]

theorem Sound.inSequence_stream (h : p.Sound source) : InSequence (p.stream.map (·.token)) :=
  ⟨List.forall_mem_map.mpr fun x hx => (h.covers x hx).1, List.pairwise_map.mpr h.ordered⟩

theorem Sound.nodup_starts (h : p.Sound source) :
    (p.stream.map (·.token.span.start)).Nodup := by
  have hstarts := h.inSequence_stream.pairwise_starts
  rw [List.map_map] at hstarts
  exact hstarts.imp Nat.ne_of_lt

theorem Sound.nodup_tokens (h : p.Sound source) : (p.stream.map (·.token)).Nodup := by
  refine List.Nodup.of_map (fun t : Token => t.span.start) ?_
  rw [List.map_map]
  exact h.nodup_starts

theorem Sound.nodup_stops (h : p.Sound source) :
    (p.stream.map (·.token.span.stop)).Nodup := by
  have hstops := h.inSequence_stream.pairwise_stops
  rw [List.map_map] at hstops
  exact hstops.imp Nat.ne_of_lt

/-- The tokens of a node are tokens of the stream, in the same order. -/
theorem Sound.tokens_sublist_stream (h : p.Sound source) {t : Tree} (ht : t ∈ p.root.nodes) :
    t.tokens.Sublist (p.stream.map (·.token)) := by
  have hroot : p.root.tokens.Sublist (p.stream.map (·.token)) := by
    rw [← h.map_token_filter]
    exact List.filter_sublist.map _
  exact (Tree.tokens_sublist_of_mem_nodes ht).trans hroot

/-- **The tokens beneath a node follow each other.** -/
theorem Sound.inSequence (h : p.Sound source) {t : Tree} (ht : t ∈ p.root.nodes) :
    InSequence t.tokens :=
  h.inSequence_stream.sublist (h.tokens_sublist_stream ht)

/-- What distinguishes the tokens of the stream distinguishes those of the tree. -/
theorem Sound.nodup_map_tokens (h : p.Sound source) {α : Type} {g : Token → α}
    (hg : (p.stream.map fun t => g t.token).Nodup) : (p.root.tokens.map g).Nodup := by
  have hsublist := (h.tokens_sublist_stream p.root.self_mem_nodes).map g
  rw [List.map_map] at hsublist
  exact hg.sublist hsublist

/-- **The tokens of a parse start at different offsets.** -/
theorem Sound.distinct (h : p.Sound source) : p.root.Distinct :=
  h.nodup_map_tokens h.nodup_starts

/-- The tokens of the tree are those of the stream that have a parent. -/
theorem Sound.mem_tokens_iff (h : p.Sound source) {t : StreamToken} (ht : t ∈ p.stream) :
    t.token ∈ p.root.tokens ↔ t.parent.isSome := by
  rw [← h.map_token_filter, List.mem_map]
  refine ⟨?_, fun hparent => ⟨t, List.mem_filter.mpr ⟨ht, hparent⟩, rfl⟩⟩
  rintro ⟨u, hu, htoken⟩
  obtain ⟨hu, hparent⟩ := List.mem_filter.mp hu
  obtain rfl := List.inj_on_of_nodup_map h.nodup_starts hu ht (by rw [htoken])
  exact hparent

end Parse

end Highlighting
