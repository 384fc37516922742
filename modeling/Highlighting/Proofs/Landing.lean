import Highlighting.Proofs.Classification

/-!
# Where overrides land

The engine files its overrides under character offsets, and the highlighter looks them up one token
at a time. Nothing in these two data structures says that they fit together. An override under an
offset at which no token starts would be lost, one under the start of a comment would recolour the
comment, and if two tokens started at the same offset both would be recoloured.

None of this happens to a parse that is made from events. A rule marks a node strictly beneath its
production, the span of a node begins with the first token beneath it, and no two tokens of the
stream, hidden or visible, start at the same offset. So every override has one token to land on, and
that token is a leaf of the tree.

An override carries the whole span of the node that was marked, but only its start is ever looked
at: `OverrideSet.without` takes a single override out again, and what that undoes is one token.

## Main definitions

* `OverrideSet.without`: a set without the override at an offset

## Main results

* `OverrideSet.countP_isSome_get?`: how many offsets are held, counted from outside
* `Parse.Sound.exists_index`: a token of the tree has one place in the stream
* `overrides_land_on_tokens`: every override lands on one visible token and touches nothing else
-/

namespace Highlighting

namespace OverrideSet

/-- The set without the override at an offset. -/
def without (s : OverrideSet) (start : Nat) : OverrideSet :=
  ⟨s.byStart.erase start⟩

theorem get?_without (s : OverrideSet) (start n : Nat) :
    (s.without start).get? n = if start = n then none else s.get? n := by
  simp [get?, without, Std.TreeMap.getElem?_erase]

/-- Distinct offsets that leave out no override hit every override once. -/
theorem countP_isSome_get? {s : OverrideSet} {starts : List Nat} (hstarts : starts.Nodup)
    (hheld : ∀ n, (s.get? n).isSome → n ∈ starts) :
    starts.countP (fun n => (s.get? n).isSome) = s.size := by
  have hperm : (starts.filter fun n => (s.get? n).isSome).Perm s.byStart.keys := by
    refine (List.perm_ext_iff_of_nodup (hstarts.filter _) Std.TreeMap.nodup_keys).mpr fun n => ?_
    rw [List.mem_filter, Std.TreeMap.mem_keys, Std.TreeMap.mem_iff_isSome_getElem?]
    exact ⟨And.right, fun hn => ⟨hheld n hn, hn⟩⟩
  rw [List.countP_eq_length_filter, hperm.length_eq, Std.TreeMap.length_keys, size]

end OverrideSet

/-- An override that a walk returns is held under its own start, and a token of the tree starts
there. -/
theorem Engine.startsAt_of_get?_walk {e : Engine} {t : Tree}
    (hmarks : ∀ n, MarksBeneath n.tree (e.catalog.marks n)) (ht : t.Spanned) {start : Nat}
    {o : Override} (h : (e.walk t).1.get? start = some o) :
    o.span.start = start ∧ t.StartsAt start := by
  rw [get?_walk] at h
  obtain ⟨ho, rfl⟩ := mem_of_lastAt_eq_some h
  obtain ⟨n, hn, ho⟩ := List.mem_flatMap.mp ho
  exact ⟨rfl, Site.startsAt_of_mem_marks hmarks ht hn ho⟩

/-- Any overrides, applied on top of the lexical stage, at one position of the stream. -/
theorem Highlighter.getElem?_resolve_lexical (h : Highlighter) (s : OverrideSet) {p : Parse}
    {i : Nat} {t : StreamToken} (ht : p.stream[i]? = some t) :
    (s.resolve (h.lexical p))[i]? = some ⟨record h.language t, (s.get? t.token.span.start).elim
      (h.language.lexicon.classify h.mode t.token.kind t.parent) (·.category)⟩ := by
  rw [resolve_lexical, List.getElem?_map, ht]
  rfl

theorem Highlighter.getElem?_lexical (h : Highlighter) {p : Parse} {i : Nat} {t : StreamToken}
    (ht : p.stream[i]? = some t) : (h.lexical p)[i]? = some ⟨record h.language t,
      h.language.lexicon.classify h.mode t.token.kind t.parent⟩ := by
  rw [lexical, records, List.getElem?_map, List.getElem?_map, ht]
  rfl

namespace Parse

variable {source : String} {p : Parse}

theorem Sound.index_eq (hp : p.Sound source) {i j : Nat} {t u : StreamToken}
    (hi : p.stream[i]? = some t) (hj : p.stream[j]? = some u)
    (h : t.token.span.start = u.token.span.start) : i = j := by
  have hlt : i < (p.stream.map (·.token.span.start)).length := by
    rw [List.length_map]
    exact (List.getElem?_eq_some_iff.mp hi).1
  refine (List.getElem?_inj hlt hp.nodup_starts).mp ?_
  rw [List.getElem?_map, List.getElem?_map, hi, hj, Option.map_some, Option.map_some, h]

/-- **A token of the tree has one place in the stream.** It is found by its start. -/
theorem Sound.exists_index (hp : p.Sound source) {start : Nat} (h : p.root.StartsAt start) :
    ∃ (i : Nat) (t : StreamToken), p.stream[i]? = some t ∧ t.token.span.start = start ∧
      t.token ∈ p.root.tokens ∧
      ∀ (j : Nat) u, p.stream[j]? = some u → u.token.span.start = start → j = i := by
  obtain ⟨x, hx, hstart⟩ := h
  have hmem := hx
  rw [← hp.map_token_filter] at hmem
  obtain ⟨t, ht, rfl⟩ := List.mem_map.mp hmem
  obtain ⟨i, hi⟩ := List.getElem?_of_mem (List.mem_filter.mp ht).1
  exact ⟨i, t, hi, hstart, hx, fun j u hj hu => hp.index_eq hj hi (hu.trans hstart.symm)⟩

/-- No token of the tree starts where a hidden token does. -/
theorem Sound.not_startsAt_of_hidden (hp : p.Sound source) {i : Nat} {t : StreamToken}
    (hi : p.stream[i]? = some t) (hhidden : t.token ∉ p.root.tokens) :
    ¬ p.root.StartsAt t.token.span.start := by
  intro h
  obtain ⟨j, u, hj, -, hu, hunique⟩ := hp.exists_index h
  obtain rfl := hunique i t hi rfl
  obtain rfl := Option.some.inj (hi.symm.trans hj)
  exact hhidden hu

end Parse

/-- **Every override lands on one visible token and touches nothing else.** An override that a walk
returns is held under its own start, where exactly one token of the stream starts, and that token is
a token of the tree. Classifying keeps the stream as it is, token by token; a token gets the
category of the override at its start, and that of the lexicon if there is none. So there are as
many tokens with an override as there are overrides, and a hidden token has none. Taking an override
out gives the token at its start back to the lexicon and changes no other token, wherever it lies in
the span of the override. -/
theorem overrides_land_on_tokens (language : Language) (mode : Mode) (pending : OverrideSet)
    {source : String} {events : List Event} {p : Parse}
    (h : Parse.ofEvents source events = .ok p) :
    let highlighter : Highlighter := ⟨language, mode, ⟨language.catalog, pending⟩⟩
    let overrides := (highlighter.engine.walk p.root).1
    let base := highlighter.lexical p
    let result := (highlighter.classify p).1
    (∀ start o, overrides.get? start = some o →
        o.span.start = start ∧
        ∃ (i : Nat) (t : StreamToken), p.stream[i]? = some t ∧ t.token.span.start = start ∧
          t.token ∈ p.root.tokens ∧
          ∀ (j : Nat) u, p.stream[j]? = some u → u.token.span.start = start → j = i) ∧
      result.map (·.record) = Highlighter.records language p ∧
      (∀ (i : Nat) t, p.stream[i]? = some t →
        result[i]?.map (·.category) = some ((overrides.get? t.token.span.start).elim
          (language.lexicon.classify mode t.token.kind t.parent) (·.category))) ∧
      p.stream.countP (fun t => (overrides.get? t.token.span.start).isSome) = overrides.size ∧
      (∀ (i : Nat) t, p.stream[i]? = some t → t.token ∉ p.root.tokens → result[i]? = base[i]?) ∧
      ∀ start o, overrides.get? start = some o → ∀ (i : Nat) t, p.stream[i]? = some t →
        ((overrides.without start).resolve base)[i]?
          = if t.token.span.start = start then base[i]? else result[i]? := by
  intro highlighter overrides base result
  have hp := Parse.sound_of_ofEvents h
  have hlands : ∀ {start o}, overrides.get? start = some o →
      o.span.start = start ∧ p.root.StartsAt start := fun ho =>
    Engine.startsAt_of_get?_walk language.marksBeneath hp.spanned ho
  have hresult : result = p.stream.map fun t =>
      ⟨Highlighter.record language t, highlighter.categoryOf p t⟩ := highlighter.classify_eq p
  have hget : ∀ {i : Nat} {t}, p.stream[i]? = some t →
      result[i]? = some ⟨Highlighter.record language t, highlighter.categoryOf p t⟩ := by
    intro i t ht
    rw [hresult, List.getElem?_map, ht]
    rfl
  refine ⟨fun start o ho => ⟨(hlands ho).1, hp.exists_index (hlands ho).2⟩, ?_, ?_, ?_, ?_, ?_⟩
  · rw [hresult, List.map_map]
    rfl
  · intro i t ht
    rw [hget ht]
    rfl
  · -- Count the starts instead of the tokens: no two are equal, and every override is under one.
    have hcount := OverrideSet.countP_isSome_get? (s := overrides) hp.nodup_starts
      fun start hs => by
      obtain ⟨o, ho⟩ := Option.isSome_iff_exists.mp hs
      obtain ⟨i, t, ht, hstart, -⟩ := hp.exists_index (hlands ho).2
      exact List.mem_map.mpr ⟨t, List.mem_of_getElem? ht, hstart⟩
    rwa [List.countP_map] at hcount
  · intro i t ht hhidden
    have hnone : overrides.get? t.token.span.start = none := by
      by_contra hsome
      obtain ⟨o, ho⟩ := Option.ne_none_iff_exists'.mp hsome
      exact hp.not_startsAt_of_hidden ht hhidden (hlands ho).2
    rw [hget ht, highlighter.getElem?_lexical ht, Highlighter.categoryOf, hnone]
    rfl
  · intro start o ho i t ht
    rw [highlighter.getElem?_resolve_lexical _ ht, highlighter.getElem?_lexical ht, hget ht,
      OverrideSet.get?_without]
    by_cases hstart : t.token.span.start = start
    · rw [if_pos hstart, if_pos hstart.symm]
      rfl
    · rw [if_neg hstart, if_neg (Ne.symm hstart)]
      rfl

/-- The theorem at a class head whose name is made of two tokens, with a comment behind it. The
override covers both tokens of the name and changes the first. -/
theorem overrides_land_on_tokens_classDefinition :
    ∃ p, Parse.ofEvents "class A B //x"
        [.enter CSharp.Rule.classDefinition, .token ⟨1, "class", none⟩,
          .enter CSharp.Rule.identifier, .token ⟨2, "A", none⟩, .token ⟨2, "B", none⟩, .leave,
          .hidden ⟨3, "//x", none⟩, .leave] = .ok p ∧
      let highlighter := Highlighter.ofLanguage .csharp
      let overrides := (highlighter.engine.walk p.root).1
      let base := highlighter.lexical p
      let result := (highlighter.classify p).1
      overrides.get? 6 = some ⟨⟨6, 8⟩, .classDeclarator, CSharp.Rule.classDefinition⟩ ∧
        result[1]?.map (·.category) = some .classDeclarator ∧
        ((overrides.without 6).resolve base)[1]? = base[1]? ∧
        ((overrides.without 6).resolve base)[2]? = result[2]? ∧
        result[3]? = base[3]? ∧
        p.stream.countP (fun t => (overrides.get? t.token.span.start).isSome) = overrides.size := by
  obtain ⟨p, h⟩ : ∃ p, Parse.ofEvents "class A B //x"
      [.enter CSharp.Rule.classDefinition, .token ⟨1, "class", none⟩,
        .enter CSharp.Rule.identifier, .token ⟨2, "A", none⟩, .token ⟨2, "B", none⟩, .leave,
        .hidden ⟨3, "//x", none⟩, .leave] = .ok p := ⟨_, (Parse.ofEvents_eq_replay _ _).trans rfl⟩
  have hroot : p.root = .node 0 CSharp.Rule.classDefinition (some ⟨0, 8⟩)
      [.leaf 1 ⟨1, ⟨0, 4⟩, "class"⟩, .node 2 CSharp.Rule.identifier (some ⟨6, 8⟩)
        [.leaf 3 ⟨2, ⟨6, 6⟩, "A"⟩, .leaf 4 ⟨2, ⟨8, 8⟩, "B"⟩]] := by
    rw [Parse.ofEvents_eq_replay] at h
    obtain rfl := Except.ok.inj h
    rfl
  have hstream : p.stream = [⟨⟨1, ⟨0, 4⟩, "class"⟩, some CSharp.Rule.classDefinition⟩,
      ⟨⟨2, ⟨6, 6⟩, "A"⟩, some CSharp.Rule.identifier⟩,
      ⟨⟨2, ⟨8, 8⟩, "B"⟩, some CSharp.Rule.identifier⟩, ⟨⟨3, ⟨10, 12⟩, "//x"⟩, none⟩] := by
    rw [Parse.ofEvents_eq_replay] at h
    obtain rfl := Except.ok.inj h
    rfl
  have hget : ((Highlighter.ofLanguage .csharp).engine.walk p.root).1.get? 6
      = some ⟨⟨6, 8⟩, .classDeclarator, CSharp.Rule.classDefinition⟩ := by
    -- The root is left last, so its mark is the one that stays.
    have hmark : lastAt 6 (CSharp.catalog.marks (Site.ofRoot p.root))
        = some ⟨⟨6, 8⟩, .classDeclarator, CSharp.Rule.classDefinition⟩ := by
      rw [hroot]
      change lastAt 6 (CSharp.firstIdentifierMarks .classDefinition .classDeclarator _) = _
      cbv
    have hproduction : (Site.ofRoot p.root).tree.isLeaf = false := by
      rw [hroot]
      rfl
    rw [Engine.get?_walk, Site.departures_of_production hproduction, List.flatMap_append,
      lastAt_append, List.flatMap_singleton]
    change (lastAt 6 (CSharp.catalog.marks (Site.ofRoot p.root))).or _ = _
    rw [hmark, Option.some_or]
  obtain ⟨-, -, hcategory, hcount, hhidden, hwithout⟩ :=
    overrides_land_on_tokens .csharp .preprocessing ∅ h
  have hname := hcategory 1 _ (by rw [hstream]; rfl)
  refine ⟨p, h, hget, ?_, ?_, ?_, ?_, hcount⟩
  · exact hname.trans (congrArg (fun o => some (Option.elim o _ _)) hget)
  · exact hwithout 6 _ hget 1 _ (by rw [hstream]; rfl)
  · exact hwithout 6 _ hget 2 _ (by rw [hstream]; rfl)
  · exact hhidden 3 _ (by rw [hstream]; rfl) (by simp [hroot])

end Highlighting
