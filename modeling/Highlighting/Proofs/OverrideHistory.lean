import Mathlib.Data.Finset.Card
import Mathlib.Data.List.DropRight
import Highlighting.Highlight
import Highlighting.Proofs.Engine

/-!
# The history of a set of overrides

A set of overrides is changed in four ways: one override is inserted, several are, or all of them
are dropped or handed out. After any number of such changes it holds what a list would tell as well:
`OverrideSet.standing` lists what has been added since the set was last emptied, and the last
override of this list at an offset is the one that is held there. Everything that can be asked of
the set is answered from the list: how many offsets it has, and which overrides in which order.

Behind this stands an invariant that the type of the set does not show: an override is held under
its own start (`OverrideSet.Keyed`). Without it, listing the overrides of a set and adding them to
another one could file them elsewhere.

Applied to highlights, sets of overrides compose. Applying one after the other is applying the first
one with the overrides of the second added to it; and since an override gives a category and leaves
the record alone, it finds the same records when it is applied again.

## Main definitions

* `OverrideSet.Change`, `OverrideSet.after`: a change to a set, and the set after some of them
* `OverrideSet.standing`: what has been added since the set was last emptied
* `OverrideSet.Keyed`: every override is held under its own start

## Main results

* `OverrideSet.after_eq_extend`: a set after some changes, in terms of what stands
* `OverrideSet.Keyed.lastAt_toList`: the list of a set tells what it holds
* `OverrideSet.resolve_resolve`: applying one set after another
* `OverrideSet.last_writer_wins`: all of this for every history
-/

namespace Highlighting

namespace OverrideSet

/-! ### Changes -/

/-- A change to a set of overrides. -/
inductive Change where
  /-- An override is inserted. -/
  | insert (o : Override)
  /-- Overrides are inserted one after the other. -/
  | extend (os : List Override)
  /-- All overrides are dropped. -/
  | clear
  /-- All overrides are handed out. -/
  | take

namespace Change

/-- Whether nothing is held after the change. -/
def empties : Change → Bool
  | clear | take => true
  | insert _ | extend _ => false

/-- The overrides that the change adds, in order. -/
def added : Change → List Override
  | insert o => [o]
  | extend os => os
  | clear | take => []

end Change

/-- The set after a change. -/
def change (s : OverrideSet) : Change → OverrideSet
  | .insert o => (s.replace o).2
  | .extend os => s.extend os
  | .clear => ∅
  | .take => s.take.2

/-- A new set after some changes. -/
def after (changes : List Change) : OverrideSet := changes.foldl change ∅

/-- What has been added since the set was last emptied, in order. -/
def standing (changes : List Change) : List Override :=
  (changes.rtakeWhile fun c => !c.empties).flatMap Change.added

theorem after_concat (changes : List Change) (c : Change) :
    after (changes ++ [c]) = (after changes).change c := by
  rw [after, List.foldl_append]
  rfl

theorem standing_concat (changes : List Change) (c : Change) :
    standing (changes ++ [c]) = if c.empties then [] else standing changes ++ c.added := by
  unfold standing
  cases hc : c.empties with
  | true => rw [List.rtakeWhile_concat_neg _ _ _ (by simp [hc]), List.flatMap_nil, if_pos rfl]
  | false =>
    rw [List.rtakeWhile_concat_pos _ _ _ (by simp [hc]), List.flatMap_append,
      List.flatMap_singleton, if_neg Bool.false_ne_true]

/-- **A set after some changes** holds what stands, added one after the other. -/
theorem after_eq_extend (changes : List Change) :
    after changes = (∅ : OverrideSet).extend (standing changes) := by
  induction changes using List.reverseRecOn with
  | nil => rfl
  | append_singleton changes c ih =>
    rw [after_concat, standing_concat, ih]
    cases c with
    | insert o => exact (extend_append ∅ (standing changes) [o]).symm
    | extend os => exact (extend_append ∅ (standing changes) os).symm
    | clear => rfl
    | take => rfl

theorem get?_after (changes : List Change) (offset : Nat) :
    (after changes).get? offset = lastAt offset (standing changes) := by
  rw [after_eq_extend, get?_extend, get?_empty, Option.or_none]

/-! ### What a set tells of itself -/

/-- Every override is held under its own start. -/
def Keyed (s : OverrideSet) : Prop := ∀ offset o, s.get? offset = some o → o.span.start = offset

theorem keyed_after (changes : List Change) : (after changes).Keyed := by
  intro offset o h
  rw [get?_after] at h
  exact (mem_of_lastAt_eq_some h).2

/-- There is an override for every start that stands, and for no other offset. -/
theorem size_after (changes : List Change) :
    (after changes).size = ((standing changes).map (·.span.start)).toFinset.card := by
  have hkeys : (after changes).byStart.keys.toFinset
      = ((standing changes).map (·.span.start)).toFinset := by
    ext offset
    have hheld : ((after changes).get? offset).isSome
        ↔ offset ∈ (standing changes).map (·.span.start) := by
      rw [get?_after, Option.isSome_iff_ne_none, Ne, lastAt_eq_none_iff, List.mem_map]
      push Not
      rfl
    rw [List.mem_toFinset, List.mem_toFinset, ← hheld, Std.TreeMap.mem_keys,
      Std.TreeMap.mem_iff_isSome_getElem?]
    rfl
  rw [← hkeys, List.toFinset_card_of_nodup Std.TreeMap.nodup_keys, Std.TreeMap.length_keys, size]

/-- Sorting only changes the order. -/
theorem toList_perm (s : OverrideSet) : s.toList.Perm (s.byStart.toList.map (·.2)) := by
  refine (List.mergeSort_perm s.byStart.values _).trans (List.Perm.of_eq ?_)
  change s.byStart.foldr (fun _ o os => o :: os) [] = _
  rw [Std.TreeMap.foldr_eq_foldr_toList, List.map_eq_foldr]

section Keyed

variable {s : OverrideSet}

theorem Keyed.nodup_starts (h : s.Keyed) : (s.toList.map (·.span.start)).Nodup := by
  have hkeys : (s.byStart.toList.map (·.2)).map (·.span.start) = s.byStart.keys := by
    rw [List.map_map, ← Std.TreeMap.map_fst_toList_eq_keys]
    refine List.map_congr_left fun x hx => ?_
    exact h x.1 x.2 (Std.TreeMap.mem_toList_iff_getElem?_eq_some.mp hx)
  rw [(s.toList_perm.map _).nodup_iff, hkeys]
  exact Std.TreeMap.nodup_keys

/-- The overrides are listed by increasing start. -/
theorem Keyed.pairwise_toList (h : s.Keyed) :
    s.toList.Pairwise fun o u => o.span.start < u.span.start := by
  have hsorted : s.toList.Pairwise fun o u => o.span.start ≤ u.span.start := by
    refine (List.pairwise_mergeSort (fun o u v hou huv => ?_) (fun o u => ?_)
      s.byStart.values).imp of_decide_eq_true
    · simp only [decide_eq_true_eq] at hou huv ⊢
      exact Nat.le_trans hou huv
    · simp only [Bool.or_eq_true, decide_eq_true_eq]
      exact Nat.le_total _ _
  have hdistinct : s.toList.Pairwise fun o u => o.span.start ≠ u.span.start :=
    List.pairwise_map.mp h.nodup_starts
  exact hsorted.imp₂ (fun _ _ => Nat.lt_of_le_of_ne) hdistinct

/-- What is listed is what is held. -/
theorem Keyed.mem_toList (h : s.Keyed) {o : Override} :
    o ∈ s.toList ↔ s.get? o.span.start = some o := by
  rw [s.toList_perm.mem_iff, List.mem_map]
  constructor
  · rintro ⟨⟨offset, u⟩, hu, rfl⟩
    have hheld : s.get? offset = some u := Std.TreeMap.mem_toList_iff_getElem?_eq_some.mp hu
    rwa [h offset u hheld]
  · intro hheld
    exact ⟨(o.span.start, o), Std.TreeMap.mem_toList_iff_getElem?_eq_some.mpr hheld, rfl⟩

/-- **The list of a set tells what it holds.** -/
theorem Keyed.lastAt_toList (h : s.Keyed) (offset : Nat) :
    lastAt offset s.toList = s.get? offset := by
  ext o
  rw [lastAt_eq_some_iff h.nodup_starts, h.mem_toList]
  constructor
  · rintro ⟨hheld, rfl⟩
    exact hheld
  · intro hheld
    obtain rfl := h offset o hheld
    exact ⟨hheld, rfl⟩

end Keyed

/-! ### Applying a set to highlights -/

/-- What the set holds for the token of a highlight. -/
def of? (s : OverrideSet) (h : Highlight) : Option Override :=
  h.record.span?.bind fun span => s.get? span.start

/-- A token has an override only if neither of its offsets is negative. -/
theorem of?_eq (s : OverrideSet) (h : Highlight) :
    s.of? h = if 0 ≤ h.record.start ∧ 0 ≤ h.record.stop then s.get? h.record.start.toNat
      else none := by
  rw [of?, TokenRecord.span?]
  rcases h.record.start with start | start <;> rcases h.record.stop with stop | stop <;> simp

/-- The highlight with the category that the set gives to its token. -/
def recolor (s : OverrideSet) (h : Highlight) : Highlight :=
  { h with category := (s.of? h).elim h.category (·.category) }

theorem resolve_eq_map (s : OverrideSet) (hs : List Highlight) :
    s.resolve hs = hs.map s.recolor := by
  refine List.map_congr_left fun h _ => ?_
  rw [recolor, of?]
  cases h.record.span?.bind fun span => s.get? span.start <;> rfl

/-- The record stays as it is, so another set still finds what it would have found. -/
theorem of?_recolor (s u : OverrideSet) (h : Highlight) : u.of? (s.recolor h) = u.of? h := rfl

/-- Overrides give categories and leave records alone. -/
theorem map_record_resolve (s : OverrideSet) (hs : List Highlight) :
    (s.resolve hs).map (·.record) = hs.map (·.record) := by
  rw [resolve_eq_map, List.map_map]
  rfl

/-- Of two overrides for one token, the one added later counts. -/
theorem of?_extend_toList (s : OverrideSet) {u : OverrideSet} (hu : u.Keyed) (h : Highlight) :
    (s.extend u.toList).of? h = (u.of? h).or (s.of? h) := by
  rw [of?, of?, of?]
  cases h.record.span? with
  | none => rfl
  | some span =>
    simp only [Option.bind_some]
    rw [get?_extend, hu.lastAt_toList]

/-- A token that both sets have an override for gets the category of the set applied last. -/
theorem recolor_recolor (s u : OverrideSet) (h : Highlight) :
    u.recolor (s.recolor h)
      = { h with category := ((u.of? h).or (s.of? h)).elim h.category (·.category) } := by
  rw [recolor, of?_recolor]
  cases u.of? h with
  | none => rfl
  | some o => rfl

/-- **Applying one set after another** is applying the first with what the second lists added. -/
theorem resolve_resolve (s : OverrideSet) {u : OverrideSet} (hu : u.Keyed) (hs : List Highlight) :
    u.resolve (s.resolve hs) = (s.extend u.toList).resolve hs := by
  rw [resolve_eq_map, resolve_eq_map, resolve_eq_map, List.map_map]
  refine List.map_congr_left fun h _ => ?_
  rw [Function.comp_apply, recolor_recolor, recolor, of?_extend_toList s hu]

/-- Applying a set again changes nothing. -/
theorem resolve_idem (s : OverrideSet) (hs : List Highlight) :
    s.resolve (s.resolve hs) = s.resolve hs := by
  rw [resolve_eq_map, resolve_eq_map, List.map_map]
  refine List.map_congr_left fun h _ => ?_
  rw [Function.comp_apply, recolor_recolor, Option.or_self, recolor]

/-- **The last writer wins.** After any number of changes to a new set, the override held for an
offset is the last one at that offset that was added since the set was last emptied. Inserting hands
back the one held before; there are as many overrides as starts that have been added; and the list
of the set has just these overrides, by increasing start. Applied to highlights, whatever their
offsets are, the set gives a token the category of the override for its start, provided that neither
offset of the token is negative; records, and with them length and order, stay as they are. Applied
after any other set, it does what that set does with the overrides of this one added to it, and
applied a second time it changes nothing. -/
theorem last_writer_wins (changes : List Change) :
    let s := after changes
    let stands := standing changes
    (∀ offset, s.get? offset = lastAt offset stands) ∧
      (∀ o, (s.replace o).1 = s.get? o.span.start ∧
        (s.replace o).2 = after (changes ++ [.insert o])) ∧
      (s.take.1 = s ∧ s.take.2 = after (changes ++ [.take])) ∧
      s.size = (stands.map (·.span.start)).toFinset.card ∧
      (∀ o, o ∈ s.toList ↔ lastAt o.span.start stands = some o) ∧
      (s.toList.Pairwise fun o u => o.span.start < u.span.start) ∧
      ∀ hs : List Highlight,
        (s.resolve hs = hs.map fun h =>
          let o? := if 0 ≤ h.record.start ∧ 0 ≤ h.record.stop then
            lastAt h.record.start.toNat stands else none
          { h with category := o?.elim h.category (·.category) }) ∧
        (s.resolve hs).map (·.record) = hs.map (·.record) ∧
        (∀ first : OverrideSet, s.resolve (first.resolve hs) = (first.extend s.toList).resolve hs) ∧
        s.resolve (s.resolve hs) = s.resolve hs := by
  intro s stands
  have hget : ∀ offset, s.get? offset = lastAt offset stands := get?_after changes
  have hkeyed : s.Keyed := keyed_after changes
  refine ⟨hget, fun o => ⟨rfl, (after_concat changes (.insert o)).symm⟩,
    ⟨rfl, (after_concat changes .take).symm⟩, size_after changes, fun o => ?_,
    hkeyed.pairwise_toList, fun hs => ⟨?_, map_record_resolve s hs, fun first => ?_, ?_⟩⟩
  · rw [hkeyed.mem_toList, hget]
  · rw [resolve_eq_map]
    refine List.map_congr_left fun h _ => ?_
    rw [recolor, of?_eq, hget]
  · exact resolve_resolve first hkeyed hs
  · exact resolve_idem s hs

end OverrideSet

end Highlighting
