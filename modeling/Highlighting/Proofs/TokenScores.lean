import Highlighting.Proofs.RightCharacters

/-!
# Scoring tokens and scoring characters

A prediction that gives each token of the reference one category can be scored in two ways. The one
takes the tokens as they are: a token counts with the length of its text, and its category is
compared as it stands with that of the reference, coarsened to the task. The other lays the
predicted categories over the characters of the source, coarsens both sides and compares character
by character. The two were written apart and share no code, and `overTokens_agrees_with_overChars`
says that they come to the same counts.

Four things can drive them apart, and each condition of the theorem rules one out. A token whose
text is longer or shorter than its place weighs differently, and a token without a place weighs only
in the first way; tokens that overlap cover each other up in the second way; characters past the end
of the source are no cells; and a prediction that is finer than the task is not coarsened in the
first way.

## Main definitions

* `Highlight.Exact`: a highlight whose text fills its place
* `Highlight.relabel`: highlights with predicted categories

## Main results

* `Score.overTokens_eq`: the tally of a prediction for each token
* `overTokens_agrees_with_overChars`: the two ways of scoring have the same tally
-/

namespace Highlighting

namespace Highlight

/-- The highlight has a place that is not empty, and its text has as many characters as the place.
-/
def Exact (h : Highlight) : Prop :=
  ∃ s, h.record.span? = some s ∧ s.start ≤ s.stop ∧ h.record.length = s.length

/-- The highlights with the predicted categories in place of their own. -/
def relabel (predicted : List Category) (hs : List Highlight) : List Highlight :=
  (predicted.zip hs).map fun x => { x.2 with category := x.1 }

/-- A token that is not empty ends in the text. -/
theorem Separate.stop_lt {hs : List Highlight} {length : Nat} (h : Separate hs length)
    {x : Highlight} (hx : x ∈ hs) {s : Span} (hplace : x.record.span? = some s)
    (hle : s.start ≤ s.stop) : s.stop < length := by
  have hspan : (s, x.category) ∈ spans hs := by
    refine List.mem_filterMap.mpr ⟨x, hx, ?_⟩
    rw [hplace]
    rfl
  exact Span.covers_lt_iff.mp (h.inside _ hspan) hle

end Highlight

/-- The tally of a prediction for each token, if there is something to score. -/
theorem Score.overTokens_eq {predicted : List Category} {reference : List Highlight}
    {source : String} (hne : reference ≠ []) (hsource : source ≠ "")
    (hlength : predicted.length = reference.length) (task : Task) :
    overTokens predicted reference source task
      = .ok ⟨((predicted.zip reference).map fun x =>
            if x.1 = task.coarsen x.2.category then x.2.record.length else 0).sum,
          ((predicted.zip reference).map fun x => x.2.record.length).sum, source.length⟩ := by
  have hlengthOf : lengthOf reference source = .ok source.length := by
    simp [lengthOf, hne, hsource]
  rw [overTokens, hlengthOf]
  show (if predicted.length ≠ reference.length then _ else Except.ok (List.foldl _ _ _)) = _
  rw [if_neg (not_not.mpr hlength), foldl_add, Nat.zero_add, Nat.zero_add]

/-- **Scoring tokens and scoring characters come to the same.** Take a reference whose tokens fill
their places, lie in the source and do not overlap, and a prediction of one category for each of
them, no finer than the task. Its tally over the tokens, and the tally over the characters of the
same categories laid over the source, both exist and have the same counts. -/
theorem overTokens_agrees_with_overChars (task : Task) {source : String}
    {reference : List Highlight} {predicted : List Category} (hreference : reference ≠ [])
    (hexact : ∀ h ∈ reference, h.Exact) (hseparate : Highlight.Separate reference source.length)
    (hlength : predicted.length = reference.length)
    (hcoarse : ∀ c ∈ predicted, task.coarsen c = c) :
    ∃ tally, Score.overTokens predicted reference source task = .ok tally ∧
      Score.overChars
        (Cells.project (Highlight.spans (Highlight.relabel predicted reference)) source.length)
        reference source task = .ok tally := by
  choose! place hplace hcovers htext using hexact
  have hsnd : (predicted.zip reference).map (·.2) = reference := List.map_snd_zip hlength.ge
  have hmem : ∀ x ∈ predicted.zip reference, x.1 ∈ predicted ∧ x.2 ∈ reference :=
    fun x hx => List.of_mem_zip hx
  -- Both sides are lists over the pairs of a prediction and a token of the reference.
  have hspans : Highlight.spans reference
      = (predicted.zip reference).map fun x => (place x.2, x.2.category) := by
    conv_lhs => rw [← hsnd]
    exact Highlight.spans_map fun x hx => hplace x.2 (hmem x hx).2
  have hrelabel : Highlight.spans (Highlight.relabel predicted reference)
      = (predicted.zip reference).map fun x => (place x.2, x.1) :=
    Highlight.spans_map fun x hx => hplace x.2 (hmem x hx).2
  have hapart : (predicted.zip reference).Pairwise fun x y =>
      (place x.2).Apart (place y.2) := by
    have hapart := hseparate.apart
    rwa [hspans, List.pairwise_map] at hapart
  have hstop : ∀ x ∈ reference, (place x).stop < source.length :=
    fun x hx => hseparate.stop_lt hx (hplace x hx) (hcovers x hx)
  have hsource : source ≠ "" := by
    rintro rfl
    obtain ⟨x, hx⟩ := List.exists_mem_of_ne_nil reference hreference
    exact absurd (hstop x hx) (Nat.not_lt_zero _)
  have htokens := Score.overTokens_eq hreference hsource hlength task
  have hchars := Score.overChars_project hspans hreference hsource hapart
    (fun x hx => hstop x.2 (hmem x hx).2) (·.1) task
  have hmatched : ∀ x ∈ predicted.zip reference,
      (if x.1 = task.coarsen x.2.category then x.2.record.length else 0)
        = if task.coarsen x.1 = task.coarsen x.2.category then (place x.2).length else 0 := by
    intro x hx
    rw [hcoarse x.1 (hmem x hx).1, htext x.2 (hmem x hx).2]
  have hcovered : ∀ x ∈ predicted.zip reference, x.2.record.length = (place x.2).length :=
    fun x hx => htext x.2 (hmem x hx).2
  rw [List.map_congr_left hmatched, List.map_congr_left hcovered] at htokens
  rw [hrelabel]
  exact ⟨_, htokens, hchars⟩

/-- The theorem at a declaration whose second token is predicted wrongly. -/
theorem overTokens_agrees_with_overChars_declaration :
    let reference : List Highlight :=
      [⟨⟨0, 2, "int", 7, some 3, "Int"⟩, .keyword⟩,
        ⟨⟨4, 4, "x", 8, some 3, "Identifier"⟩, .variableDeclarator⟩,
        ⟨⟨5, 5, ";", 9, some 3, "Semi"⟩, .any⟩]
    let predicted : List Category := [.keyword, .any, .any]
    (∀ h ∈ reference, h.Exact) ∧ Highlight.Separate reference "int x;".length ∧
      (∀ c ∈ predicted, Task.declarators.coarsen c = c) ∧
      ∃ tally, Score.overTokens predicted reference "int x;" .declarators = .ok tally ∧
        Score.overChars
          (Cells.project (Highlight.spans (Highlight.relabel predicted reference)) 6)
          reference "int x;" .declarators = .ok tally ∧
        tally = ⟨4, 5, 6⟩ := by
  intro reference predicted
  have hexact : ∀ h ∈ reference, h.Exact := by
    simp only [reference, List.forall_mem_cons]
    exact ⟨⟨⟨0, 2⟩, rfl, by decide, rfl⟩, ⟨⟨4, 4⟩, rfl, by decide, rfl⟩,
      ⟨⟨5, 5⟩, rfl, by decide, rfl⟩, by simp⟩
  have hseparate : Highlight.Separate reference "int x;".length := by decide
  have hcoarse : ∀ c ∈ predicted, Task.declarators.coarsen c = c := by decide
  obtain ⟨tally, htokens, hchars⟩ := overTokens_agrees_with_overChars .declarators
    (List.cons_ne_nil _ _) hexact hseparate rfl hcoarse
  refine ⟨hexact, hseparate, hcoarse, tally, htokens, hchars, ?_⟩
  exact (Except.ok.inj htokens).symm

end Highlighting
