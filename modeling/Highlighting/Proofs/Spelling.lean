import Mathlib.Data.List.Basic
import Mathlib.Data.List.Induction
import Highlighting.Text.Blank

/-!
# Texts with blanks between them

A token that is reported by its text is looked for behind the blanks at the cursor, and so is the
next one behind it. Skipping blanks is greedy, which makes the search simple and has a price: a text
that begins with a blank is never found, since the blank has been skipped before the comparison.

`Text.Spells` says what the search amounts to without mentioning it. A source spells some texts if
it can be cut into blanks, the first text, blanks, the second text, and so on, with something left
over. Nothing in this says how far the blanks reach, but a text that begins with a character that is
not blank leaves no choice, and `Text.spells_singleton` is the search again.

## Main definitions

* `Text.Blank`, `Text.Solid`: nothing but blanks, and a text that does not begin with one
* `Text.Spells`: a list of characters begins with some texts, with blanks in front of each

## Main results

* `Text.spells_append`: texts can be spelled in two parts
* `Text.spells_singleton`: to spell a text, skip the blanks and compare
* `Text.Spells.rest_unique`: what is left is determined
-/

namespace Highlighting

namespace Text

/-- There is nothing but blanks. -/
def Blank (cs : List Char) : Prop := ∀ c ∈ cs, isBlank c = true

/-- The text begins with a character that is not blank. In particular, it is not empty. -/
def Solid (text : String) : Prop := ∃ c, text.toList.head? = some c ∧ isBlank c = false

/-- The characters begin with the texts in order, each behind some blanks, and go on with `rest`. -/
def Spells (cs : List Char) (texts : List String) (rest : List Char) : Prop :=
  (∀ text ∈ texts, Solid text) ∧ ∃ gaps : List (List Char), gaps.length = texts.length ∧
    (∀ gap ∈ gaps, Blank gap) ∧
    cs = (List.zipWith (fun gap text => gap ++ text.toList) gaps texts).flatten ++ rest

variable {cs gap rest : List Char} {text : String} {texts : List String}

theorem Solid.length_pos (h : Solid text) : 0 < text.length := by
  obtain ⟨c, hc, -⟩ := h
  rw [← String.length_toList]
  exact List.length_pos_of_mem (List.mem_of_head? hc)

/-! ### Skipping blanks -/

theorem blank_takeWhile (cs : List Char) : Blank (cs.takeWhile isBlank) := fun _ hc =>
  List.all_eq_true.mp List.all_takeWhile _ hc

/-- What skipping leaves does not begin with a blank. -/
theorem isBlank_of_head?_dropWhile {c : Char} (h : (cs.dropWhile isBlank).head? = some c) :
    isBlank c = false := by
  have hnot := List.head?_dropWhile_not isBlank cs
  rwa [h] at hnot

theorem Solid.dropWhile_eq (h : Solid text) (hgap : Blank gap) :
    (gap ++ (text.toList ++ rest)).dropWhile isBlank = text.toList ++ rest := by
  obtain ⟨c, hc, hblank⟩ := h
  obtain ⟨tail, htail⟩ := List.head?_eq_some_iff.mp hc
  rw [List.dropWhile_append_of_pos hgap, htail, List.cons_append,
    List.dropWhile_cons_of_neg (by simp [hblank])]

theorem Solid.takeWhile_eq (h : Solid text) (hgap : Blank gap) :
    (gap ++ (text.toList ++ rest)).takeWhile isBlank = gap := by
  have hsplit := List.takeWhile_append_dropWhile (p := isBlank) (l := gap ++ (text.toList ++ rest))
  rw [h.dropWhile_eq hgap] at hsplit
  exact List.append_cancel_right hsplit

/-! ### Spelling -/

@[simp] theorem spells_nil : Spells cs [] rest ↔ cs = rest := by
  simp [Spells]

theorem spells_cons : Spells cs (text :: texts) rest ↔
    Solid text ∧ ∃ gap mid, Blank gap ∧ cs = gap ++ (text.toList ++ mid) ∧
      Spells mid texts rest := by
  constructor
  · rintro ⟨hsolid, gaps, hlength, hblank, rfl⟩
    rw [List.forall_mem_cons] at hsolid
    cases gaps with
    | nil => contradiction
    | cons gap gaps =>
      rw [List.forall_mem_cons] at hblank
      refine ⟨hsolid.1, gap, _, hblank.1, ?_, hsolid.2, gaps, Nat.succ.inj hlength, hblank.2, rfl⟩
      simp
  · rintro ⟨hsolid, gap, mid, hblank, rfl, hsolids, gaps, hlength, hblanks, rfl⟩
    refine ⟨List.forall_mem_cons.mpr ⟨hsolid, hsolids⟩, gap :: gaps, by simp [hlength],
      List.forall_mem_cons.mpr ⟨hblank, hblanks⟩, ?_⟩
    simp

/-- **Texts can be spelled in two parts.** -/
theorem spells_append {more : List String} : Spells cs (texts ++ more) rest ↔
    ∃ mid, Spells cs texts mid ∧ Spells mid more rest := by
  induction texts generalizing cs with
  | nil => simp
  | cons text texts ih =>
    simp only [List.cons_append, spells_cons, ih]
    constructor
    · rintro ⟨hsolid, gap, after, hblank, hcs, mid, htexts, hmore⟩
      exact ⟨mid, ⟨hsolid, gap, after, hblank, hcs, htexts⟩, hmore⟩
    · rintro ⟨mid, ⟨hsolid, gap, after, hblank, hcs, htexts⟩, hmore⟩
      exact ⟨hsolid, gap, after, hblank, hcs, mid, htexts, hmore⟩

/-- **To spell a text, skip the blanks and compare.** The blanks in front of a text that does not
begin with one are all the blanks there are. -/
theorem spells_singleton : Spells cs [text] rest ↔
    text.isEmpty = false ∧ text.toList.isPrefixOf? (cs.dropWhile isBlank) = some rest := by
  rw [spells_cons, List.isPrefixOf?_eq_some_iff_append_eq]
  constructor
  · rintro ⟨hsolid, gap, mid, hblank, rfl, hmid⟩
    rw [spells_nil] at hmid
    refine ⟨?_, by rw [hsolid.dropWhile_eq hblank, hmid]⟩
    rw [String.isEmpty_eq_false_iff]
    rintro rfl
    exact absurd hsolid.length_pos (by decide)
  · rintro ⟨hempty, hdrop⟩
    have hne : text.toList ≠ [] := by
      rwa [ne_eq, String.toList_eq_nil_iff, ← ne_eq, ← String.isEmpty_eq_false_iff]
    obtain ⟨c, tail, htext⟩ := List.exists_cons_of_ne_nil hne
    have hhead : (cs.dropWhile isBlank).head? = some c := by
      rw [← hdrop, htext]
      rfl
    refine ⟨⟨c, by rw [htext]; rfl, isBlank_of_head?_dropWhile hhead⟩,
      cs.takeWhile isBlank, rest, blank_takeWhile cs, ?_, spells_nil.mpr rfl⟩
    rw [hdrop, List.takeWhile_append_dropWhile]

/-- There is one way to spell texts, so what is left is determined. -/
theorem Spells.rest_unique {rest' : List Char} (h : Spells cs texts rest)
    (h' : Spells cs texts rest') : rest = rest' := by
  induction texts using List.reverseRecOn generalizing rest rest' with
  | nil => exact (spells_nil.mp h).symm.trans (spells_nil.mp h')
  | append_singleton texts text ih =>
    obtain ⟨mid, hmid, hlast⟩ := spells_append.mp h
    obtain ⟨mid', hmid', hlast'⟩ := spells_append.mp h'
    obtain rfl := ih hmid hmid'
    exact Option.some.inj ((spells_singleton.mp hlast).2.symm.trans (spells_singleton.mp hlast').2)

end Text

end Highlighting
