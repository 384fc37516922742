import Mathlib.Data.List.Infix
import Highlighting.Proofs.Engine
import Highlighting.Proofs.Starts

/-!
# The outermost rule wins

Several productions may mark the same offset, and then the override that counts is the one of the
enclosing production. This is the policy that the order of a walk is meant to implement, and it
needs three facts that come from different places.

* Rules mark beneath their production, so a production that marks an offset has a token that starts
  there somewhere beneath it.
* No two tokens of a parse start at the same offset, so those productions all lie on the way from
  the root down to that one token.
* Productions are left inside out and a later mark replaces an earlier one, so of the productions on
  that way the one nearest to the root has the last word.

Nodes are told apart by their position, the list of child numbers that leads from the root to them
(`Site.follow?`). One node is above another when its position is a prefix of the other's.

## Main definitions

* `Site.outermostAt`: what is marked at an offset by the first site that marks it on the way down to
  another one

## Main results

* `Site.exists_path`: the sites that mark an offset lie on one way down, and the first decides
* `outermost_rule_wins`: the same for the rules of every language and the overrides of a walk
-/

namespace Highlighting

/-! ### Positions -/

namespace Site

theorem mem_nodes_of_follow? {s n : Site} {path : List Nat} (h : s.follow? path = some n) :
    n.tree ∈ s.tree.nodes := by
  induction path generalizing s with
  | nil =>
    obtain rfl := Option.some.inj h
    exact s.tree.self_mem_nodes
  | cons k path ih =>
    obtain ⟨c, hc, h⟩ := Option.bind_eq_some_iff.mp h
    obtain ⟨d, hd, rfl⟩ := List.mem_map.mp (List.mem_of_getElem? hc)
    exact Tree.mem_nodes.mpr (.inr ⟨d, hd, ih h⟩)

theorem exists_follow? {s : Site} {u : Tree} (h : u ∈ s.tree.nodes) :
    ∃ path n, s.follow? path = some n ∧ n.tree = u := by
  obtain ⟨t, up⟩ := s
  induction t using Tree.induction generalizing up with
  | leaf m x =>
    rw [Tree.nodes_leaf, List.mem_singleton] at h
    exact ⟨[], ⟨_, up⟩, rfl, h.symm⟩
  | node m r sp cs ih =>
    rcases Tree.mem_nodes.mp h with rfl | ⟨c, hc, hu⟩
    · exact ⟨[], ⟨_, up⟩, rfl, rfl⟩
    · obtain ⟨k, hk⟩ := List.getElem?_of_mem hc
      obtain ⟨path, n, hpath, hn⟩ := ih c hc (.node m r sp cs :: up) hu
      refine ⟨k :: path, n, ?_, hn⟩
      rw [follow?, children, List.getElem?_map, hk]
      exact hpath

/-- Every way down ends at a node without children. -/
theorem exists_follow?_childless (s : Site) :
    ∃ path n, s.follow? path = some n ∧ n.tree.children = [] := by
  obtain ⟨t, up⟩ := s
  induction t using Tree.induction generalizing up with
  | leaf m x => exact ⟨[], ⟨_, up⟩, rfl, rfl⟩
  | node m r sp cs ih =>
    cases cs with
    | nil => exact ⟨[], ⟨_, up⟩, rfl, rfl⟩
    | cons c cs =>
      obtain ⟨path, n, hpath, hn⟩ := ih c List.mem_cons_self (.node m r sp (c :: cs) :: up)
      exact ⟨0 :: path, n, hpath, hn⟩

end Site

/-! ### The last mark among siblings -/

/-- Where all but one of the parts say nothing about an offset, that one decides. -/
theorem lastAt_flatMap_of_getElem? {α : Type} {offset : Nat} {g : α → List Override} {as : List α}
    {k : Nat} {a : α} (ha : as[k]? = some a)
    (hothers : ∀ j b, as[j]? = some b → j ≠ k → lastAt offset (g b) = none) :
    lastAt offset (as.flatMap g) = lastAt offset (g a) := by
  induction as generalizing k with
  | nil => contradiction
  | cons b as ih =>
    rw [List.flatMap_cons, lastAt_append]
    cases k with
    | zero =>
      obtain rfl := Option.some.inj ha
      have hrest : lastAt offset (as.flatMap g) = none := by
        refine lastAt_eq_none_iff.mpr fun o ho => ?_
        obtain ⟨c, hc, ho⟩ := List.mem_flatMap.mp ho
        obtain ⟨j, hj⟩ := List.getElem?_of_mem hc
        exact lastAt_eq_none_iff.mp (hothers (j + 1) c hj (Nat.succ_ne_zero j)) o ho
      rw [hrest, Option.none_or]
    | succ k =>
      rw [hothers 0 b rfl (Nat.succ_ne_zero k).symm, Option.or_none]
      exact ih ha fun j c hc hj => hothers (j + 1) c hc (by omega)

/-! ### The way down to a token -/

namespace Site

/-- What the marks of the sites on the way down from `s` say about an offset: the last word of the
first of them that marks it. The prefixes of a position are listed shortest first. -/
def outermostAt (marks : Site → List Override) (offset : Nat) (s : Site) (path : List Nat) :
    Option Override :=
  path.inits.findSome? fun above => (s.follow? above).bind fun n => lastAt offset (marks n)

theorem outermostAt_nil (marks : Site → List Override) (offset : Nat) (s : Site) :
    s.outermostAt marks offset [] = lastAt offset (marks s) := by
  simp [outermostAt, follow?]

theorem outermostAt_cons {marks : Site → List Override} {offset : Nat} {s c : Site} {k : Nat}
    (hc : s.children[k]? = some c) (path : List Nat) :
    s.outermostAt marks offset (k :: path)
      = (lastAt offset (marks s)).or (c.outermostAt marks offset path) := by
  rw [outermostAt, List.inits_cons, List.findSome?_cons, List.findSome?_map]
  have hbelow : ∀ above, ((s.follow? (k :: above)).bind fun n => lastAt offset (marks n))
      = (c.follow? above).bind fun n => lastAt offset (marks n) := by
    intro above
    rw [follow?, hc, Option.bind_some]
  simp only [Function.comp_def, hbelow]
  cases h : lastAt offset (marks s) <;> simp [follow?, h, outermostAt]

/-- Nothing on the way down marks the offset. -/
theorem outermostAt_eq_none_iff {marks : Site → List Override} {offset : Nat} {s : Site}
    {path : List Nat} :
    s.outermostAt marks offset path = none ↔
      ∀ above, above <+: path → ∀ n, s.follow? above = some n → lastAt offset (marks n) = none := by
  simp only [outermostAt, List.findSome?_eq_none_iff, List.mem_inits, Option.bind_eq_none_iff]

theorem exists_child {s c : Site} {k : Nat} (hc : s.children[k]? = some c) :
    ∃ t, s.tree.children[k]? = some t ∧ c = ⟨t, s.tree :: s.ancestors⟩ := by
  rw [children, List.getElem?_map, Option.map_eq_some_iff] at hc
  obtain ⟨t, ht, rfl⟩ := hc
  exact ⟨t, ht, rfl⟩

/-- Only one child has a token that starts at a given offset. -/
theorem index_eq_of_startsAt {s c d : Site} (hs : s.tree.Distinct) {j k offset : Nat}
    (hc : s.children[j]? = some c) (hd : s.children[k]? = some d)
    (hco : c.tree.StartsAt offset) (hdo : d.tree.StartsAt offset) : j = k := by
  obtain ⟨t, ht, rfl⟩ := exists_child hc
  obtain ⟨u, hu, rfl⟩ := exists_child hd
  obtain ⟨hj, rfl⟩ := List.getElem?_eq_some_iff.mp ht
  obtain ⟨hk, rfl⟩ := List.getElem?_eq_some_iff.mp hu
  have hpair := List.pairwise_iff_getElem.mp hs.children.2
  rcases Nat.lt_trichotomy j k with hlt | heq | hgt
  · exact absurd hdo (hpair j k hj hk hlt offset hco)
  · exact heq
  · exact absurd hco (hpair k j hk hj hgt offset hdo)

section Marks

variable {marks : Site → List Override} (hmarks : ∀ n, MarksBeneath n.tree (marks n))
  {s : Site} {offset : Nat}

include hmarks

/-- A site that marks an offset has a token there. -/
theorem startsAt_of_isSome_lastAt {n : Site} (hn : n.tree.Spanned)
    (h : (lastAt offset (marks n)).isSome) : n.tree.StartsAt offset := by
  obtain ⟨o, ho⟩ := Option.isSome_iff_exists.mp h
  obtain ⟨hmem, rfl⟩ := mem_of_lastAt_eq_some ho
  exact MarksBeneath.startsAt (hmarks n) hn hmem

/-- A walk says nothing about an offset at which no token starts. -/
theorem lastAt_departures_eq_none (hspanned : s.tree.Spanned) (h : ¬ s.tree.StartsAt offset) :
    lastAt offset (s.departures.flatMap marks) = none := by
  refine lastAt_eq_none_iff.mpr fun o ho hoff => h ?_
  obtain ⟨n, hn, ho⟩ := List.mem_flatMap.mp ho
  exact hoff ▸ startsAt_of_mem_marks hmarks hspanned hn ho

end Marks

section Path

variable {s last : Site} {path : List Nat} {x : Token}

theorem startsAt_of_follow? (hpath : s.follow? path = some last)
    (hlast : last.tree.token? = some x) : s.tree.StartsAt x.span.start :=
  ⟨x, List.mem_filterMap.mpr ⟨last.tree, mem_nodes_of_follow? hpath, hlast⟩, rfl⟩

/-- A node with a token that starts where `x` does lies on the way down to `x`. -/
theorem isPrefix_of_startsAt (hs : s.tree.Distinct) (hpath : s.follow? path = some last)
    (hlast : last.tree.token? = some x) {above : List Nat} {n : Site}
    (habove : s.follow? above = some n) (hn : n.tree.StartsAt x.span.start) : above <+: path := by
  induction above generalizing s path with
  | nil => exact List.nil_prefix
  | cons j above ih =>
    obtain ⟨c, hc, habove⟩ := Option.bind_eq_some_iff.mp habove
    have hco := hn.of_mem_nodes (mem_nodes_of_follow? habove)
    cases path with
    | nil =>
      -- The way down to `x` ends here, at a token, which has no children.
      obtain rfl := Option.some.inj hpath
      obtain ⟨m, hm⟩ := Tree.exists_eq_leaf hlast
      simp [children, hm, Tree.children] at hc
    | cons k path =>
      obtain ⟨d, hd, hpath⟩ := Option.bind_eq_some_iff.mp hpath
      obtain rfl := index_eq_of_startsAt hs hc hd hco (startsAt_of_follow? hpath hlast)
      obtain rfl := Option.some.inj (hc.symm.trans hd)
      obtain ⟨t, ht, rfl⟩ := exists_child hc
      exact List.cons_prefix_cons.mpr
        ⟨rfl, ih (hs.children.1 t (List.mem_of_getElem? ht)) hpath habove⟩

/-- **The first production on the way down has the last word.** -/
theorem lastAt_departures_eq_outermostAt {marks : Site → List Override}
    (hmarks : ∀ n, MarksBeneath n.tree (marks n)) (hspanned : s.tree.Spanned)
    (hs : s.tree.Distinct) (hpath : s.follow? path = some last)
    (hlast : last.tree.token? = some x) :
    lastAt x.span.start (s.departures.flatMap marks)
      = s.outermostAt marks x.span.start path := by
  induction path generalizing s with
  | nil =>
    obtain rfl := Option.some.inj hpath
    have hleaf : s.tree.isLeaf = true := by
      obtain ⟨m, hm⟩ := Tree.exists_eq_leaf hlast
      rw [hm, Tree.isLeaf]
    rw [departures_of_isLeaf hleaf, outermostAt_nil, MarksBeneath.eq_nil (hmarks s) hleaf,
      List.flatMap_nil]
  | cons k path ih =>
    obtain ⟨c, hc, hpath⟩ := Option.bind_eq_some_iff.mp hpath
    have hchild : ∀ {j : Nat} {d : Site}, s.children[j]? = some d →
        d.tree.Spanned ∧ d.tree.Distinct := by
      intro j d hd
      obtain ⟨t, ht, rfl⟩ := exists_child hd
      have ht := List.mem_of_getElem? ht
      exact ⟨hspanned.of_mem_children ht, hs.children.1 t ht⟩
    have hothers : ∀ j d, s.children[j]? = some d → j ≠ k →
        lastAt x.span.start (d.departures.flatMap marks) = none := by
      intro j d hd hj
      refine lastAt_departures_eq_none hmarks (hchild hd).1 fun hdo => hj ?_
      exact index_eq_of_startsAt hs hd hc hdo (startsAt_of_follow? hpath hlast)
    rw [departures_of_production (isLeaf_of_mem_children (List.mem_of_getElem? hc)),
      List.flatMap_append, lastAt_append, List.flatMap_singleton, List.flatMap_assoc,
      lastAt_flatMap_of_getElem? hc hothers, ih (hchild hc).1 (hchild hc).2 hpath,
      outermostAt_cons hc]

end Path

/-- **One way down decides.** Every offset has a way down from the root to a node without children
such that all sites that mark the offset lie on it, and the first of them has the last word. -/
theorem exists_path {marks : Site → List Override}
    (hmarks : ∀ n, MarksBeneath n.tree (marks n)) {s : Site} (hspanned : s.tree.Spanned)
    (hs : s.tree.Distinct) (offset : Nat) :
    ∃ path last, s.follow? path = some last ∧ last.tree.children = [] ∧
      (∀ above n, s.follow? above = some n → (lastAt offset (marks n)).isSome → above <+: path) ∧
      lastAt offset (s.departures.flatMap marks) = s.outermostAt marks offset path := by
  have hstarts : ∀ {above n}, s.follow? above = some n → (lastAt offset (marks n)).isSome →
      n.tree.StartsAt offset := fun habove =>
    startsAt_of_isSome_lastAt hmarks (hspanned.of_mem (mem_nodes_of_follow? habove))
  by_cases h : s.tree.StartsAt offset
  · obtain ⟨x, hx, rfl⟩ := h
    obtain ⟨u, hu, hux⟩ := List.mem_filterMap.mp hx
    obtain ⟨path, last, hpath, rfl⟩ := exists_follow? hu
    have hchildless : last.tree.children = [] := by
      obtain ⟨m, hm⟩ := Tree.exists_eq_leaf hux
      rw [hm, Tree.children]
    refine ⟨path, last, hpath, hchildless, fun above n habove hn => ?_, ?_⟩
    · exact isPrefix_of_startsAt hs hpath hux habove (hstarts habove hn)
    · exact lastAt_departures_eq_outermostAt hmarks hspanned hs hpath hux
  · -- Nothing marks the offset, so any way down will do.
    have hnone : ∀ {above n}, s.follow? above = some n → lastAt offset (marks n) = none := by
      intro above n habove
      by_contra hn
      exact h ((hstarts habove (Option.isSome_iff_ne_none.mpr hn)).of_mem_nodes
        (mem_nodes_of_follow? habove))
    obtain ⟨path, last, hpath, hlast⟩ := s.exists_follow?_childless
    refine ⟨path, last, hpath, hlast, fun above n habove hn => ?_, ?_⟩
    · simp [hnone habove] at hn
    · rw [lastAt_departures_eq_none hmarks hspanned h, eq_comm, outermostAt_eq_none_iff]
      exact fun above _ n habove => hnone habove

end Site

/-- **The outermost rule wins.** Every rule of every language marks what covers a node strictly
beneath its production. So the productions that mark an offset all lie on one way from the root down
to a node without children, and the override that a walk returns for the offset is the last one that
the first of them makes. There is none exactly if no production marks the offset. -/
theorem outermost_rule_wins (language : Language) (pending : OverrideSet) {source : String}
    {events : List Event} {p : Parse} (h : Parse.ofEvents source events = .ok p) :
    let root := Site.ofRoot p.root
    let marks := language.catalog.marks
    let overrides := (Engine.walk ⟨language.catalog, pending⟩ p.root).1
    (∀ path n, root.follow? path = some n →
        ∀ o ∈ marks n, ∃ d ∈ n.tree.descendants, d.span = some o.span) ∧
      ∀ offset, ∃ path last, root.follow? path = some last ∧ last.tree.children = [] ∧
        (∀ above n, root.follow? above = some n → (lastAt offset (marks n)).isSome →
          above <+: path) ∧
        overrides.get? offset = root.outermostAt marks offset path ∧
        (overrides.get? offset = none ↔
          ∀ above n, root.follow? above = some n → lastAt offset (marks n) = none) := by
  intro root marks overrides
  have hsound := Parse.sound_of_ofEvents h
  have hmarks : ∀ n, MarksBeneath n.tree (marks n) := language.marksBeneath
  refine ⟨fun path n _ => hmarks n, fun offset => ?_⟩
  obtain ⟨path, last, hpath, hlast, honPath, hwalk⟩ :=
    root.exists_path hmarks hsound.spanned hsound.distinct offset
  have hget : overrides.get? offset = root.outermostAt marks offset path :=
    (Engine.get?_walk _ _ _).trans hwalk
  refine ⟨path, last, hpath, hlast, honPath, hget, ?_⟩
  rw [hget, Site.outermostAt_eq_none_iff]
  refine ⟨fun hnone above n habove => ?_, fun hnone above _ n habove => hnone above n habove⟩
  by_contra hn
  exact hn (hnone above (honPath above n habove (Option.isSome_iff_ne_none.mpr hn)) n habove)

/-- The theorem at a class head whose only identifier is also the name of a type. -/
theorem outermost_rule_wins_classDefinition :
    ∃ p, Parse.ofEvents "class A"
        [.enter CSharp.Rule.classDefinition, .token ⟨1, "class", none⟩,
          .enter CSharp.Rule.namespaceOrTypeName, .enter CSharp.Rule.identifier,
          .token ⟨2, "A", none⟩, .leave, .leave, .leave] = .ok p ∧
      (((Site.ofRoot p.root).follow? [1]).bind
        fun n => lastAt 6 (CSharp.catalog.marks n)).map (·.category) = some .typeIdentifier ∧
      ((Engine.walk ⟨CSharp.catalog, ∅⟩ p.root).1.get? 6).map (·.category)
        = some .classDeclarator := by
  obtain ⟨p, h⟩ : ∃ p, Parse.ofEvents "class A"
        [.enter CSharp.Rule.classDefinition, .token ⟨1, "class", none⟩,
          .enter CSharp.Rule.namespaceOrTypeName, .enter CSharp.Rule.identifier,
          .token ⟨2, "A", none⟩, .leave, .leave, .leave] = .ok p :=
    ⟨_, (Parse.ofEvents_eq_replay _ _).trans rfl⟩
  have hroot : p.root = .node 0 CSharp.Rule.classDefinition (some ⟨0, 6⟩)
      [.leaf 1 ⟨1, ⟨0, 4⟩, "class"⟩, .node 2 CSharp.Rule.namespaceOrTypeName (some ⟨6, 6⟩)
        [.node 3 CSharp.Rule.identifier (some ⟨6, 6⟩) [.leaf 4 ⟨2, ⟨6, 6⟩, "A"⟩]]] := by
    rw [Parse.ofEvents_eq_replay] at h
    obtain rfl := Except.ok.inj h
    rfl
  obtain ⟨-, hwins⟩ := outermost_rule_wins .csharp ∅ h
  obtain ⟨path, -, -, -, -, hget, -⟩ := hwins 6
  refine ⟨p, h, ?_, ?_⟩
  · rw [hroot]
    change (lastAt 6 (CSharp.identifierMarks .namespaceOrTypeName .typeIdentifier _)).map _ = _
    cbv
  · have hfirst : (lastAt 6 (CSharp.catalog.marks (Site.ofRoot p.root))).map (·.category)
        = some .classDeclarator := by
      rw [hroot]
      change (lastAt 6 (CSharp.firstIdentifierMarks .classDefinition .classDeclarator _)).map _ = _
      cbv
    obtain ⟨o, ho, hcategory⟩ := Option.map_eq_some_iff.mp hfirst
    have houtermost : (Site.ofRoot p.root).outermostAt CSharp.catalog.marks 6 path = some o := by
      cases path <;> simp [Site.outermostAt, Site.follow?, ho]
    exact Option.map_eq_some_iff.mpr ⟨o, hget.trans houtermost, hcategory⟩

end Highlighting
