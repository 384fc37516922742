import Mathlib.Algebra.BigOperators.Group.List.Basic
import Mathlib.Algebra.Field.Rat
import Highlighting.Proofs.Classification
import Highlighting.Proofs.Projection
import Highlighting.Score

/-!
# What a wrong category costs

A prediction that puts other categories on the tokens of a file loses exactly the characters of the
tokens on which it is wrong, as far as the task can tell, and no others. Behind this stand three
facts: tokens that are read from events are not empty, lie inside the source and do not overlap;
laid over the cells of the source they do not cover each other up; and the tally counts every cell
of every token once.

## Main definitions

* `Highlight.deficit`: the characters of the tokens on which two lists of highlights differ

## Main results

* `Score.agreeing_project`: a token matches as a whole or not at all
* `overChars_project_deficit`: a prediction loses the characters of the tokens on which it is wrong
-/

namespace Highlighting

/-- The number of characters of the tokens on which two lists of highlights of the same tokens
differ to a task. -/
def Highlight.deficit (task : Task) (predicted reference : List Highlight) : Int :=
  ((predicted.zip reference).map fun x =>
    if task.coarsen x.1.category = task.coarsen x.2.category then 0
    else x.2.record.stop - x.2.record.start + 1).sum

namespace Score

/-! ### One token -/

/-- The cells of a span that all hold the same category agree as a whole or not at all. -/
theorem agreeing_of_forall {predicted : Cells} {span : Span} {category : Category}
    (hspan : span.stop < predicted.size)
    (h : ∀ n, span.Covers n → predicted.get? n = some category) (task : Task) (target : Category) :
    agreeing predicted task target span
      = if task.coarsen category = target then span.length else 0 := by
  have hsize : (predicted.cells.extract span.start (span.stop + 1)).size = span.length := by
    rw [Array.size_extract, Span.length]
    have : predicted.cells.size = predicted.size := rfl
    omega
  have hcells : ∀ cell ∈ predicted.cells.extract span.start (span.stop + 1),
      cell = some category := by
    intro cell hcell
    obtain ⟨k, hk, rfl⟩ := Array.mem_iff_getElem.mp hcell
    have hcovers : span.Covers (span.start + k) := by
      rw [hsize, Span.length] at hk
      exact ⟨by omega, by omega⟩
    have hget := h _ hcovers
    rw [Cells.get?, Option.join_eq_some_iff] at hget
    rw [Array.getElem_extract]
    exact (Array.getElem?_eq_some_iff.mp hget).2
  rw [agreeing, ← hsize]
  split_ifs with htarget
  · exact Array.countP_eq_size.mpr fun cell hcell => by simp [hcells cell hcell, htarget]
  · exact Array.countP_eq_zero.mpr fun cell hcell => by simp [hcells cell hcell, htarget]

/-- **A token matches as a whole or not at all**, if the prediction is laid over the cells token by
token and no two tokens overlap. -/
theorem agreeing_project {spans : List (Span × Category)} {length : Nat}
    (hapart : spans.Pairwise fun x y => x.1.Apart y.1) {s : Span × Category}
    (hs : s ∈ spans) (hlength : s.1.stop < length) (task : Task) (target : Category) :
    agreeing (Cells.project spans length) task target s.1
      = if task.coarsen s.2 = target then s.1.length else 0 := by
  refine agreeing_of_forall (by simpa using hlength) (fun n hn => ?_) task target
  exact Cells.get?_project_of_mem hapart hs hn (Nat.lt_of_le_of_lt hn.2 hlength)

/-! ### All tokens -/

theorem foldl_add {α : Type} (covered matched : α → Nat) (xs : List α) (t : Tally) :
    xs.foldl (fun t x => t.add (covered x) (matched x)) t
      = ⟨t.matched + (xs.map matched).sum, t.covered + (xs.map covered).sum, t.chars⟩ := by
  induction xs generalizing t with
  | nil => rfl
  | cons x xs ih =>
    rw [List.foldl_cons, ih]
    simp [Tally.add, Nat.add_assoc]

/-- The tally of a prediction, if there is something to score. -/
theorem overChars_eq {reference : List Highlight} {source : String} (hne : reference ≠ [])
    (hsource : source ≠ "") (predicted : Cells) (task : Task) :
    overChars predicted reference source task
      = .ok ⟨((Highlight.spans reference).map fun s =>
            agreeing predicted task (task.coarsen s.2) s.1).sum,
          ((Highlight.spans reference).map fun s => s.1.length).sum, source.length⟩ := by
  have hlengthOf : lengthOf reference source = .ok source.length := by
    simp [lengthOf, hne, hsource]
  rw [overChars, hlengthOf]
  change Except.ok (List.foldl _ _ _) = _
  rw [foldl_add, Nat.zero_add, Nat.zero_add]

/-- The tally of a prediction that lays the tokens `xs` over the cells with categories of its own,
against a reference with the same tokens. -/
theorem overChars_project {α : Type} {xs : List α} {place : α → Span}
    {reference : α → Category} {source : String} {highlights : List Highlight}
    (hspans : Highlight.spans highlights = xs.map fun x => (place x, reference x))
    (hne : highlights ≠ []) (hsource : source ≠ "")
    (hapart : xs.Pairwise fun x y => (place x).Apart (place y))
    (hlength : ∀ x ∈ xs, (place x).stop < source.length) (predicted : α → Category) (task : Task) :
    overChars (Cells.project (xs.map fun x => (place x, predicted x)) source.length) highlights
        source task
      = .ok ⟨(xs.map fun x => if task.coarsen (predicted x) = task.coarsen (reference x)
            then (place x).length else 0).sum,
          (xs.map fun x => (place x).length).sum, source.length⟩ := by
  have hagree : ∀ x ∈ xs,
      agreeing (Cells.project (xs.map fun x => (place x, predicted x)) source.length) task
          (task.coarsen (reference x)) (place x)
        = if task.coarsen (predicted x) = task.coarsen (reference x) then (place x).length
          else 0 := by
    intro x hx
    exact agreeing_project (List.pairwise_map.mpr hapart)
      (List.mem_map_of_mem (f := fun x => (place x, predicted x)) hx) (hlength x hx) task _
  rw [overChars_eq hne hsource, hspans, List.map_map, List.map_map]
  exact congrArg (fun xs : List Nat => Except.ok (Tally.mk xs.sum _ _)) (List.map_congr_left hagree)

/-- What is matched and what is missed make up what is covered. -/
theorem sum_matched_add_missed {α : Type} (same : α → Prop) [DecidablePred same]
    {length : α → Nat} {cost : α → Int} {xs : List α} (h : ∀ x ∈ xs, cost x = length x) :
    ((xs.map fun x => if same x then length x else 0).sum : Int)
        + (xs.map fun x => if same x then 0 else cost x).sum
      = (xs.map length).sum := by
  induction xs with
  | nil => rfl
  | cons x xs ih =>
    obtain ⟨hx, hxs⟩ := List.forall_mem_cons.mp h
    have ih := ih hxs
    simp only [List.map_cons, List.sum_cons, Nat.cast_add, hx]
    split_ifs <;> omega

end Score

namespace Highlight

theorem deficit_self (task : Task) (hs : List Highlight) : deficit task hs hs = 0 := by
  induction hs with
  | nil => rfl
  | cons x hs ih => simpa [deficit] using ih

theorem spans_map {α : Type} {xs : List α} {highlight : α → Highlight} {place : α → Span}
    (h : ∀ x ∈ xs, (highlight x).record.span? = some (place x)) :
    spans (xs.map highlight) = xs.map fun x => (place x, (highlight x).category) := by
  rw [spans, List.filterMap_map, ← List.filterMap_eq_map]
  exact List.filterMap_congr fun x hx => by simp [h x hx]

end Highlight

/-- A source with a token is not empty. -/
theorem Parse.Sound.source_ne_empty {source : String} {p : Parse} (hp : p.Sound source)
    (hne : p.stream ≠ []) : source ≠ "" := by
  rintro rfl
  obtain ⟨t, ht⟩ := List.exists_mem_of_ne_nil _ hne
  exact absurd (hp.covers t ht).2 (Nat.not_lt_zero _)

namespace Highlighter

/-- Highlights of the tokens of a stream can be paired with the tokens. -/
theorem exists_pairs {language : Language} {stream : List StreamToken} {predicted : List Highlight}
    (h : predicted.map (·.record) = stream.map (record language)) :
    ∃ xs : List (Highlight × StreamToken), xs.map (·.1) = predicted ∧ xs.map (·.2) = stream ∧
      ∀ x ∈ xs, x.1.record = record language x.2 := by
  have hlen : predicted.length = stream.length := by
    simpa using congrArg List.length h
  have hfst : (predicted.zip stream).map (·.1) = predicted := List.map_fst_zip hlen.le
  have hsnd : (predicted.zip stream).map (·.2) = stream := List.map_snd_zip hlen.ge
  refine ⟨predicted.zip stream, hfst, hsnd, List.map_inj_left.mp ?_⟩
  calc (predicted.zip stream).map (fun x => x.1.record)
      = ((predicted.zip stream).map (·.1)).map (·.record) := by rw [List.map_map]; rfl
    _ = ((predicted.zip stream).map (·.2)).map (record language) := by rw [hfst, hsnd, h]
    _ = (predicted.zip stream).map (fun x => record language x.2) := by rw [List.map_map]; rfl

/-- Other categories for the tokens of a parse, scored against its classification. -/
theorem exists_overChars_eq (h : Highlighter) {source : String} {p : Parse} (hp : p.Sound source)
    (hne : p.stream ≠ []) {predicted : List Highlight}
    (hrecords : predicted.map (·.record) = (h.classify p).1.map (·.record)) (task : Task) :
    ∃ tally, Score.overChars (Cells.project (Highlight.spans predicted) source.length)
        (h.classify p).1 source task = .ok tally ∧
      tally.chars = source.length ∧
      (tally.matched : Int) + Highlight.deficit task predicted (h.classify p).1
        = tally.covered := by
  rw [classify_eq, List.map_map] at hrecords
  obtain ⟨xs, rfl, hstream, hpair⟩ := exists_pairs hrecords
  have hclassify : (h.classify p).1
      = xs.map fun x => ⟨record h.language x.2, h.categoryOf p x.2⟩ := by
    rw [classify_eq, ← hstream, List.map_map]
    rfl
  have hpredicted : Highlight.spans (xs.map (·.1))
      = xs.map fun x => (x.2.token.span, x.1.category) :=
    Highlight.spans_map fun x hx => by rw [hpair x hx, span?_record]
  have hreference : Highlight.spans (h.classify p).1
      = xs.map fun x => (x.2.token.span, h.categoryOf p x.2) := by
    rw [hclassify, Highlight.spans_map fun x _ => span?_record h.language x.2]
  have hcovers : ∀ x ∈ xs, x.2.token.span.start ≤ x.2.token.span.stop ∧
      x.2.token.span.stop < source.length := by
    intro x hx
    exact hp.covers x.2 (hstream ▸ List.mem_map_of_mem hx)
  have hapart : xs.Pairwise fun x y => x.2.token.span.Apart y.2.token.span := by
    have hordered := hp.ordered
    rw [← hstream, List.pairwise_map] at hordered
    exact hordered.imp Span.apart_of_lt
  have hclassified : (h.classify p).1 ≠ [] := by
    rwa [classify_eq, Ne, List.map_eq_nil_iff]
  have htally := Score.overChars_project hreference hclassified (hp.source_ne_empty hne) hapart
    (fun x hx => (hcovers x hx).2) (fun x => x.1.category) task
  rw [← hpredicted] at htally
  refine ⟨_, htally, rfl, ?_⟩
  rw [Highlight.deficit, hclassify, List.zip_map', List.map_map]
  refine Score.sum_matched_add_missed _ fun x hx => ?_
  have hcover := (hcovers x hx).1
  change (x.2.token.span.stop : Int) - x.2.token.span.start + 1 = (x.2.token.span.length : Nat)
  rw [Span.length]
  omega

end Highlighter

/-- **A prediction loses the characters of the tokens on which it is wrong.** Classify a parse that
has some token, and put any other categories on its tokens. Scored against the classification, the
characters that are not right are those of the tokens whose categories differ to the task. A
classification is perfectly right about itself. -/
theorem overChars_project_deficit (language : Language) (mode : Mode) (pending : OverrideSet)
    {source : String} {events : List Event} {p : Parse} (h : Parse.ofEvents source events = .ok p)
    (hne : p.stream ≠ []) :
    let reference := (Highlighter.classify ⟨language, mode, ⟨language.catalog, pending⟩⟩ p).1
    (∀ (task : Task) (predicted : List Highlight),
        predicted.map (·.record) = reference.map (·.record) →
        ∃ tally, Score.overChars (Cells.project (Highlight.spans predicted) source.length) reference
            source task = .ok tally ∧
          tally.chars = source.length ∧
          (tally.matched : Int) + source.length - tally.covered
            = source.length - Highlight.deficit task predicted reference) ∧
      ∀ task : Task, ∃ tally, Score.overChars
          (Cells.project (Highlight.spans reference) source.length) reference source task
            = .ok tally ∧
        tally.matched = tally.covered ∧
        ((tally.matched : ℚ) + tally.chars - tally.covered) / tally.chars = 1 := by
  intro reference
  have hp := Parse.sound_of_ofEvents h
  have hchars : source.length ≠ 0 := by
    rw [Ne, String.length_eq_zero_iff]
    exact hp.source_ne_empty hne
  refine ⟨fun task predicted hrecords => ?_, fun task => ?_⟩
  · obtain ⟨tally, hok, hlen, hsum⟩ := Highlighter.exists_overChars_eq _ hp hne hrecords task
    refine ⟨tally, hok, hlen, ?_⟩
    change (tally.matched : Int) + Highlight.deficit task predicted reference = _ at hsum
    omega
  · obtain ⟨tally, hok, hlen, hsum⟩ := Highlighter.exists_overChars_eq _ hp hne rfl task
    rw [Highlight.deficit_self] at hsum
    have hmatched : tally.matched = tally.covered := by omega
    refine ⟨tally, hok, hmatched, ?_⟩
    have hne : (tally.chars : ℚ) ≠ 0 := by
      rw [hlen]
      exact_mod_cast hchars
    rw [hmatched, add_sub_cancel_left, div_self hne]

/-- The theorem at a class head with a comment behind it, for a prediction that knows nothing. -/
theorem overChars_project_deficit_classDefinition :
    ∃ p, Parse.ofEvents "class A //x"
        [.enter CSharp.Rule.classDefinition, .token ⟨1, "class", none⟩,
          .enter CSharp.Rule.identifier, .token ⟨2, "A", none⟩, .leave, .hidden ⟨3, "//x", none⟩,
          .leave] = .ok p ∧
      p.stream ≠ [] ∧
      let reference := ((Highlighter.ofLanguage .csharp).classify p).1
      let predicted := reference.map fun x => { x with category := .any }
      predicted.map (·.record) = reference.map (·.record) ∧
        ∃ tally, Score.overChars (Cells.project (Highlight.spans predicted) 11) reference
            "class A //x" .full = .ok tally ∧
          (tally.matched : Int) + 11 - tally.covered
            = 11 - Highlight.deficit .full predicted reference := by
  obtain ⟨p, h⟩ : ∃ p, Parse.ofEvents "class A //x"
      [.enter CSharp.Rule.classDefinition, .token ⟨1, "class", none⟩,
        .enter CSharp.Rule.identifier, .token ⟨2, "A", none⟩, .leave, .hidden ⟨3, "//x", none⟩,
        .leave] = .ok p := ⟨_, (Parse.ofEvents_eq_replay _ _).trans rfl⟩
  have hne : p.stream ≠ [] := by
    rw [Parse.ofEvents_eq_replay] at h
    obtain rfl := Except.ok.inj h
    exact List.cons_ne_nil _ _
  have hrecords : ∀ hs : List Highlight,
      (hs.map fun x => { x with category := Category.any }).map (·.record) = hs.map (·.record) :=
    fun hs => by simp
  obtain ⟨hdeficit, -⟩ := overChars_project_deficit .csharp .preprocessing ∅ h hne
  obtain ⟨tally, hok, -, hsum⟩ := hdeficit .full _ (hrecords _)
  exact ⟨p, h, hne, hrecords _, tally, hok, hsum⟩

end Highlighting
