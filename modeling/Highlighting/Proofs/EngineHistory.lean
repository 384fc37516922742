import Mathlib.Data.List.Induction
import Highlighting.Language.CSharp.Catalog
import Highlighting.Proofs.Engine

/-!
# The history of an engine

An engine lives longer than a file, and its pending overrides are the one thing that could carry a
mark from one file to another. It can be used in three ways: it walks a tree of its own accord, it
is driven over a tree as a plain listener, or it is reset. The first two share the pending set, so a
walk after a drive finds it filled.

The measure of all of them is what the rules say of a tree alone: `Catalog.overrides` applies them
to the productions in post-order, beginning with nothing. It knows of no engine, no listener and no
stack, and post-order is plain recursion here (`Tree.postorder`). A walk returns just that, whatever
the engine has been through, and leaves nothing pending; drives pile up, and what they pile up is
the overrides of their trees laid over each other, later ones on top.

## Main definitions

* `Tree.postorder`: the productions of a tree, children before parents
* `Catalog.overrides`: what the rules of a catalog say of a tree
* `OverrideSet.Same`, `OverrideSet.merge`: equal contents, and one set laid over another
* `Engine.Action`, `Engine.after`: a use of an engine, and the engine after some of them

## Main results

* `Site.postorder_eq_departures`: a walk leaves productions in post-order
* `Engine.walk_eq_overrides`, `Engine.listen_same_merge`: a walk and a drive, in terms of the
  catalog
* `engine_leaks_nothing`: nothing that an engine has been through shows in a walk
-/

namespace Highlighting

/-! ### Overrides of a tree, without an engine -/

namespace Tree

mutual

/-- The sites of the productions of a tree that stands under some others, children before
parents. -/
def postorder (up : List Tree) : Tree → List Site
  | .leaf _ _ => []
  | .node n r s cs => postorders (.node n r s cs :: up) cs ++ [⟨.node n r s cs, up⟩]

/-- The sites of the productions of siblings. -/
def postorders (up : List Tree) : List Tree → List Site
  | [] => []
  | c :: cs => postorder up c ++ postorders up cs

end

theorem postorders_eq_flatMap (up cs : List Tree) :
    postorders up cs = cs.flatMap (postorder up) := by
  induction cs with
  | nil => rw [postorders, List.flatMap_nil]
  | cons c cs ih => rw [postorders, ih, List.flatMap_cons]

end Tree

/-- **A walk leaves productions in post-order.** -/
theorem Site.postorder_eq_departures (s : Site) : s.tree.postorder s.ancestors = s.departures := by
  induction s using induction with
  | leaf s hs =>
    obtain ⟨_ | _, up⟩ := s
    · rw [departures_of_isLeaf hs, Tree.postorder]
    · contradiction
  | production s hs ih =>
    obtain ⟨_ | ⟨n, r, sp, cs⟩, up⟩ := s
    · contradiction
    · rw [departures_of_production hs, ← List.flatMap_congr ih, Tree.postorder,
        Tree.postorders_eq_flatMap, children, List.flatMap_map]
      rfl

/-- What the rules of a catalog say of a tree: they are applied to its productions in post-order,
and nothing is marked before. -/
def Catalog.overrides (c : Catalog) (t : Tree) : OverrideSet :=
  (t.postorder []).foldl (fun marked s => marked.extend (c.marks s)) ∅

namespace OverrideSet

/-- The two sets hold the same overrides. -/
def Same (s u : OverrideSet) : Prop := s.byStart.Equiv u.byStart

/-- The overrides of both sets, where those of the second one replace those of the first that start
at the same offset. -/
def merge (s u : OverrideSet) : OverrideSet := ⟨s.byStart ∪ u.byStart⟩

theorem same_iff {s u : OverrideSet} : s.Same u ↔ ∀ start, s.get? start = u.get? start :=
  ⟨fun h _ => h.getElem?_eq, Std.TreeMap.Equiv.of_forall_constGet?_eq⟩

theorem get?_merge (s u : OverrideSet) (start : Nat) :
    (s.merge u).get? start = (u.get? start).or (s.get? start) :=
  Std.TreeMap.getElem?_union

theorem foldl_extend (marks : Site → List Override) (sites : List Site) (s : OverrideSet) :
    sites.foldl (fun marked n => marked.extend (marks n)) s = s.extend (sites.flatMap marks) := by
  induction sites generalizing s with
  | nil => rfl
  | cons n sites ih => rw [List.foldl_cons, ih, List.flatMap_cons, extend_append]

end OverrideSet

theorem Catalog.overrides_eq (c : Catalog) (t : Tree) :
    c.overrides t = (∅ : OverrideSet).extend ((Site.ofRoot t).departures.flatMap c.marks) := by
  rw [overrides, OverrideSet.foldl_extend, ← Site.postorder_eq_departures]
  rfl

/-- What the rules of a catalog say of several trees, laid over each other in order. -/
def Catalog.overridesAll (c : Catalog) (ts : List Tree) : OverrideSet :=
  ts.foldl (fun s t => s.merge (c.overrides t)) ∅

/-! ### Using an engine -/

namespace Engine

/-- A use of an engine. -/
inductive Action where
  /-- The engine walks a tree. -/
  | walk (t : Tree)
  /-- The engine is driven over a tree as a plain listener. -/
  | listen (t : Tree)
  /-- The engine is reset. -/
  | reset

/-- Whether an engine has nothing pending after it is used so. -/
def Action.clears : Action → Bool
  | walk _ | reset => true
  | listen _ => false

/-- The engine after it is used. -/
def act (e : Engine) : Action → Engine
  | .walk t => (e.walk t).2
  | .listen t => e.listen t
  | .reset => e.reset

/-- A new engine for a catalog, after it has been used in some ways. -/
def after (c : Catalog) (actions : List Action) : Engine :=
  actions.foldl act { catalog := c }

variable (e : Engine) (t : Tree)

/-- **A walk returns what the rules say of the tree.** Whatever is pending does not matter. -/
theorem walk_eq_overrides : e.walk t = (e.catalog.overrides t, e.reset) := by
  rw [walk_eq, Catalog.overrides_eq]

/-- **A drive lays what the rules say of the tree over what is pending.** -/
theorem listen_same_merge :
    (e.listen t).pending.Same (e.pending.merge (e.catalog.overrides t)) := by
  refine OverrideSet.same_iff.mpr fun start => ?_
  rw [listen_eq, OverrideSet.get?_extend, OverrideSet.get?_merge, Catalog.overrides_eq,
    OverrideSet.get?_extend, OverrideSet.get?_empty, Option.or_none]

@[simp] theorem catalog_act (a : Action) : (e.act a).catalog = e.catalog := by
  cases a with
  | walk t => rw [act, walk_eq]; rfl
  | listen t => rw [act, listen_eq]
  | reset => rfl

theorem pending_act_of_clears {a : Action} (h : a.clears = true) : (e.act a).pending = ∅ := by
  cases a with
  | walk t => rw [act, walk_eq]; rfl
  | listen t => contradiction
  | reset => rfl

/-! ### Whole histories -/

variable {c : Catalog} {actions : List Action}

theorem after_concat (c : Catalog) (actions : List Action) (a : Action) :
    after c (actions ++ [a]) = (after c actions).act a := by
  rw [after, List.foldl_append]
  rfl

theorem catalog_after (c : Catalog) (actions : List Action) : (after c actions).catalog = c := by
  induction actions using List.reverseRecOn with
  | nil => rfl
  | append_singleton actions a ih => rw [after_concat, catalog_act, ih]

/-- Nothing is pending in a new engine, or after the last action has cleared it. -/
theorem pending_after_of_clears (h : ∀ a, actions.getLast? = some a → a.clears = true) :
    (after c actions).pending = ∅ := by
  rcases List.eq_nil_or_concat actions with rfl | ⟨actions, a, rfl⟩
  · rfl
  · rw [List.concat_eq_append, after_concat]
    exact pending_act_of_clears _ (h a (by simp))

/-- **Drives pile up.** What the rules say of the trees is laid over each other, in the order of the
drives. -/
theorem pending_after_listen (h : (after c actions).pending = ∅) (ts : List Tree) :
    (after c (actions ++ ts.map .listen)).pending.Same (c.overridesAll ts) := by
  refine OverrideSet.same_iff.mpr fun start => ?_
  induction ts using List.reverseRecOn with
  | nil =>
    rw [List.map_nil, List.append_nil, h]
    rfl
  | append_singleton ts t ih =>
    have hdrive := OverrideSet.same_iff.mp
      (listen_same_merge (after c (actions ++ ts.map .listen)) t) start
    rw [catalog_after, OverrideSet.get?_merge, ih] at hdrive
    rw [List.map_append, ← List.append_assoc, List.map_singleton, after_concat,
      Catalog.overridesAll, List.foldl_append, List.foldl_cons, List.foldl_nil,
      OverrideSet.get?_merge]
    exact hdrive

end Engine

/-- **An engine leaks nothing between files.** Whatever a new engine has been used for, the next
walk returns what the rules say of its tree, applied in post-order to nothing, and leaves nothing
pending; nor does a reset. Driven over some trees from the beginning, or since the last walk or
reset, an engine has pending what the rules say of each of the trees, laid over each other so that a
later override replaces an earlier one at the same offset. -/
theorem engine_leaks_nothing (c : Catalog) (before : List Engine.Action) :
    let e := Engine.after c before
    (∀ t, (e.walk t).1 = c.overrides t ∧ (e.walk t).2.pending = ∅) ∧
      e.reset.pending = ∅ ∧
      ((∀ a, before.getLast? = some a → a.clears = true) → ∀ ts : List Tree,
        (Engine.after c (before ++ ts.map .listen)).pending.Same (c.overridesAll ts)) := by
  intro e
  have hcatalog : e.catalog = c := Engine.catalog_after c before
  refine ⟨fun t => ?_, rfl, fun hclears => ?_⟩
  · rw [Engine.walk_eq_overrides, hcatalog]
    exact ⟨rfl, rfl⟩
  · exact Engine.pending_after_listen (Engine.pending_after_of_clears hclears)

/-- The theorem at an engine that is driven over a class head, reset, driven over another one whose
name starts at the same offset, and then over the first one again. -/
theorem engine_leaks_nothing_classDefinition :
    let head (name : String) : Tree := .node 0 CSharp.Rule.classDefinition (some ⟨0, 6⟩)
      [.leaf 1 ⟨1, ⟨0, 4⟩, "class"⟩, .node 2 CSharp.Rule.identifier (some ⟨6, 6⟩)
        [.leaf 3 ⟨2, ⟨6, 6⟩, name⟩]]
    let e := Engine.after CSharp.catalog [.listen (head "A"), .reset, .listen (head "B")]
    (e.walk (head "A")).1 = CSharp.catalog.overrides (head "A") ∧
      (e.listen (head "A")).pending.Same
        (CSharp.catalog.overridesAll [head "B", head "A"]) := by
  intro head e
  have hdriven := (engine_leaks_nothing CSharp.catalog [.listen (head "A"), .reset]).2.2
    (by simp [Engine.Action.clears]) [head "B", head "A"]
  exact ⟨((engine_leaks_nothing CSharp.catalog _).1 (head "A")).1, hdriven⟩

end Highlighting
