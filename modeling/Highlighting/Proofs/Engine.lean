import Mathlib.Data.List.Nodup
import Highlighting.Catalog
import Highlighting.Proofs.Walk

/-!
# The overrides of a walk

An engine extends its pending overrides whenever a walk leaves a production, and a later override
replaces an earlier one that starts at the same offset. So what a whole walk leaves behind is
determined by one list, the marks of all productions in the order in which they are left:
`Engine.listen_eq` and `Engine.walk_eq` say which set that is, and `OverrideSet.get?_extend` reads
it, as the last mark at each offset.

## Main definitions

* `lastAt`: the last override of a list that starts at an offset

## Main results

* `OverrideSet.get?_extend`: the last override at an offset is the one that is held
* `Engine.walk_eq`: the overrides of a tree are the marks of its productions, inner ones first
-/

namespace Highlighting

/-- The last override of a list that starts at an offset. -/
def lastAt (offset : Nat) (os : List Override) : Option Override :=
  os.findRev? fun o => o.span.start == offset

theorem lastAt_append (offset : Nat) (os us : List Override) :
    lastAt offset (os ++ us) = (lastAt offset us).or (lastAt offset os) := by
  simp [lastAt]

theorem lastAt_cons (offset : Nat) (o : Override) (os : List Override) :
    lastAt offset (o :: os)
      = (lastAt offset os).or (if o.span.start = offset then some o else none) := by
  rw [← List.singleton_append, lastAt_append]
  simp [lastAt, List.findRev?]

theorem lastAt_eq_none_iff {offset : Nat} {os : List Override} :
    lastAt offset os = none ↔ ∀ o ∈ os, o.span.start ≠ offset := by
  simp [lastAt]

theorem mem_of_lastAt_eq_some {offset : Nat} {os : List Override} {o : Override}
    (h : lastAt offset os = some o) : o ∈ os ∧ o.span.start = offset := by
  rw [lastAt, List.findRev?_eq_find?_reverse] at h
  exact ⟨by simpa using List.mem_of_find?_eq_some h, by simpa using List.find?_some h⟩

theorem lastAt_eq_some_iff {os : List Override} (hnodup : (os.map (·.span.start)).Nodup)
    {offset : Nat} {o : Override} :
    lastAt offset os = some o ↔ o ∈ os ∧ o.span.start = offset := by
  constructor
  · exact mem_of_lastAt_eq_some
  · rintro ⟨ho, hstart⟩
    cases hlast : lastAt offset os with
    | none => exact absurd hstart (lastAt_eq_none_iff.mp hlast o ho)
    | some u =>
      obtain ⟨hu, hustart⟩ := mem_of_lastAt_eq_some hlast
      rw [List.inj_on_of_nodup_map hnodup hu ho (hustart.trans hstart.symm)]

namespace OverrideSet

theorem extend_append (s : OverrideSet) (os us : List Override) :
    s.extend (os ++ us) = (s.extend os).extend us :=
  List.foldl_append

/-- **The last override at an offset is the one that is held.** -/
theorem get?_extend (s : OverrideSet) (os : List Override) (offset : Nat) :
    (s.extend os).get? offset = (lastAt offset os).or (s.get? offset) := by
  induction os generalizing s with
  | nil => rfl
  | cons o os ih =>
    rw [extend, List.foldl_cons, ← extend, ih, get?_insert, lastAt_cons, Option.or_assoc]
    split_ifs <;> rfl

end OverrideSet

namespace Engine

/-- A listener that hears some notices adds the marks of the productions that are left. -/
theorem foldl_hear (e : Engine) (ns : List Notice) :
    ns.foldl hear e = { e with
      pending := e.pending.extend ((ns.filterMap Notice.left?).flatMap e.catalog.marks) } := by
  induction ns generalizing e with
  | nil => rfl
  | cons n ns ih =>
    rw [List.foldl_cons, ih]
    cases n with
    | enter s => rfl
    | visit s => rfl
    | leave s =>
      have hleft : (Notice.leave s :: ns).filterMap Notice.left? = s :: ns.filterMap Notice.left? :=
        rfl
      rw [hleft, List.flatMap_cons, OverrideSet.extend_append]
      rfl

theorem listen_eq (e : Engine) (t : Tree) :
    e.listen t = { e with
      pending := e.pending.extend
        ((Site.ofRoot t).departures.flatMap e.catalog.marks) } := by
  rw [listen, Site.walk_eq_foldl, foldl_hear]
  rfl

/-- **The overrides of a tree** are the marks of its productions, in the order in which these are
left; nothing that was pending before matters, and nothing is pending afterwards. -/
theorem walk_eq (e : Engine) (t : Tree) :
    e.walk t = ((∅ : OverrideSet).extend ((Site.ofRoot t).departures.flatMap e.catalog.marks),
      e.reset) := by
  rw [walk, listen_eq]
  rfl

theorem get?_walk (e : Engine) (t : Tree) (offset : Nat) :
    (e.walk t).1.get? offset
      = lastAt offset ((Site.ofRoot t).departures.flatMap e.catalog.marks) := by
  rw [walk_eq, OverrideSet.get?_extend, OverrideSet.get?_empty, Option.or_none]

end Engine

end Highlighting
