import Highlighting.Proofs.Marks

/-!
# Scans as recursive search

A scan keeps the nodes that it still has to visit in a list, and what a match turns into depends on
an answer function that may remember every earlier match. This module says what a scan does without
that list. `Scan.visit` is plain recursion on the tree: a node that matches is offered, its children
are visited unless it is accepted, and an accepted node is marked if it has a span. The two
directions differ in one place, `Scan.visitAll`, which visits the first of some siblings before the
others or after them.

A match without tokens is the odd case. It can be accepted, and then nothing beneath it is visited,
but it is not marked, it does not count, and a scan for the first match goes on behind it.

What the recursion carries along is a `Scan.Progress`: everything that can be seen of a scan, from
the matches that have been offered to the set that the overrides are inserted in. A scan shows the
matches it offers only to its answer function, so the statement about them is made for an answer
function that keeps a record, `Scan.recording`.

## Main definitions

* `Scan.Progress`: how far a search has come
* `Scan.visit`, `Scan.visitAll`: the search, by recursion on the tree
* `Scan.recording`: an answer function that also records what it is offered

## Main results

* `Scan.search_eq_foldl_visit`: the nodes still to visit are visited one after the other
* `Scan.visit_invariant`: what offering and inserting preserve, a visit preserves
* `Scan.run_is_pruned_search`: a scan is the recursive search, call by call and override by override
-/

namespace Highlighting

namespace Scan

/-- How far a search has come. -/
structure Progress (σ : Type) where
  /-- The state of the answer function. -/
  state : σ
  /-- The matches that have been offered, in order. -/
  offered : List Hit
  /-- The overrides that have been inserted, in order. -/
  inserted : List Override
  /-- How many overrides have been inserted. -/
  count : Nat
  /-- The set that they have been inserted in. -/
  overrides : OverrideSet
  /-- Whether the search is over. -/
  ended : Bool

variable {σ : Type}

namespace Progress

/-- A search begins with some state of the answer function and some overrides. -/
def start (state : σ) (overrides : OverrideSet) : Progress σ :=
  { state, offered := [], inserted := [], count := 0, overrides, ended := false }

/-- After a match has been offered and the answer function has gone on to another state. -/
def offer (p : Progress σ) (hit : Hit) (state : σ) : Progress σ :=
  { p with state, offered := p.offered ++ [hit] }

/-- After an override has been inserted, which may be the end of the search. -/
def insert (p : Progress σ) (o : Override) (ended : Bool) : Progress σ :=
  { p with
    inserted := p.inserted ++ [o]
    count := p.count + 1
    overrides := p.overrides.insert o
    ended }

/-- The progress of a search whose answer function keeps a record in its state. -/
def recorded (p : Progress σ) : Progress (σ × List Hit) :=
  { p with state := (p.state, p.offered) }

end Progress

/-- The answer function that also records what it is offered. -/
def recording (answer : σ → Hit → Option Category × σ) :
    σ × List Hit → Hit → Option Category × (σ × List Hit) := fun s hit =>
  ((answer s.1 hit).1, ((answer s.1 hit).2, s.2 ++ [hit]))

section Visit

variable (scan : Scan) (origin : RuleId) (answer : σ → Hit → Option Category × σ)

/-- Offers a match. If it is declined, the search goes on beneath it with `descend`; if it is
accepted, it is marked, provided that it has a span. -/
def settle (hit : Hit) (descend : Progress σ → Progress σ) (p : Progress σ) : Progress σ :=
  match answer p.state hit with
  | (none, state) => descend (p.offer hit state)
  | (some category, state) =>
    match hit.tree.span with
    | none => p.offer hit state
    | some span => (p.offer hit state).insert ⟨span, category, origin⟩ scan.firstOnly

mutual

/-- Searches a node and all beneath it, unless the search is over. -/
def visit : Tree → Progress σ → Progress σ
  | .leaf n token, p =>
    if p.ended then p
    else if scan.terminal = some token.kind then
      scan.settle origin answer (.terminal (.leaf n token)) id p
    else p
  | .node n rule span cs, p =>
    if p.ended then p
    else if rule ∈ scan.productions then
      scan.settle origin answer (.production (.node n rule span cs)) (visitAll cs) p
    else visitAll cs p

/-- Searches siblings, given in source order, from left to right or from right to left. -/
def visitAll : List Tree → Progress σ → Progress σ
  | [], p => p
  | t :: ts, p =>
    if scan.reversed then visit t (visitAll ts p) else visitAll ts (visit t p)

end

end Visit

section

variable {scan : Scan} {origin : RuleId} {answer : σ → Hit → Option Category × σ}

/-! ### The recursion, one node at a time -/

theorem tree_of_hit? {t : Tree} {hit : Hit} (h : scan.hit? t = some hit) : hit.tree = t := by
  cases t with
  | leaf n token =>
    simp only [hit?, Option.ite_none_right_eq_some] at h
    obtain rfl := Option.some.inj h.2
    rfl
  | node n rule span cs =>
    simp only [hit?, Option.ite_none_right_eq_some] at h
    obtain rfl := Option.some.inj h.2
    rfl

theorem visit_of_ended {t : Tree} {p : Progress σ} (hp : p.ended = true) :
    scan.visit origin answer t p = p := by
  cases t <;> simp [visit, hp]

/-- Visiting siblings is visiting them one after the other, in the order of the scan. -/
theorem visitAll_eq_foldl (ts : List Tree) (p : Progress σ) :
    scan.visitAll origin answer ts p
      = (scan.inOrder ts).foldl (fun p t => scan.visit origin answer t p) p := by
  induction ts generalizing p with
  | nil => simp [visitAll, inOrder]
  | cons t ts ih =>
    rw [visitAll, ih, ih]
    by_cases hr : scan.reversed = true
    · simp [inOrder, hr]
    · simp [inOrder, hr]

theorem visit_of_hit?_eq_none {t : Tree} {p : Progress σ} (hp : p.ended = false)
    (h : scan.hit? t = none) :
    scan.visit origin answer t p = scan.visitAll origin answer t.children p := by
  cases t with
  | leaf n token =>
    have hkind : ¬ scan.terminal = some token.kind := by simpa [hit?] using h
    simp [visit, visitAll, Tree.children, hp, hkind]
  | node n rule span cs =>
    have hrule : rule ∉ scan.productions := by simpa [hit?] using h
    simp [visit, Tree.children, hp, hrule]

theorem visit_of_hit?_eq_some {t : Tree} {hit : Hit} {p : Progress σ} (hp : p.ended = false)
    (h : scan.hit? t = some hit) :
    scan.visit origin answer t p
      = scan.settle origin answer hit (scan.visitAll origin answer t.children) p := by
  cases t with
  | leaf n token =>
    simp only [hit?, beq_iff_eq, Option.ite_none_right_eq_some] at h
    obtain ⟨hkind, hhit⟩ := h
    obtain rfl := Option.some.inj hhit
    have hnone : scan.visitAll origin answer [] = id := funext fun q => by rw [visitAll, id]
    simp [visit, Tree.children, hp, hkind, hnone]
  | node n rule span cs =>
    simp only [hit?, List.contains_iff_mem, Option.ite_none_right_eq_some] at h
    obtain ⟨hrule, hhit⟩ := h
    obtain rfl := Option.some.inj hhit
    simp [visit, Tree.children, hp, hrule]

/-! ### The list of nodes still to visit -/

/-- **The nodes still to visit are visited one after the other.** The induction is on the search, so
its first case is the only one in which the list is empty; in the others the first node of the list
is visited by the recursion just as the search goes on. -/
theorem search_eq_foldl_visit (pending : List Tree) {p : Progress σ} (hp : p.ended = false) :
    scan.search origin answer pending p.state p.inserted.reverse
      = ((pending.foldl (fun p t => scan.visit origin answer t p) p).inserted,
        (pending.foldl (fun p t => scan.visit origin answer t p) p).state) := by
  -- Once the search is over, the recursion passes over what is left.
  have hover : ∀ (rest : List Tree) {q : Progress σ}, q.ended = true →
      rest.foldl (fun p t => scan.visit origin answer t p) q = q := by
    intro rest
    induction rest with
    | nil => intro q _; rfl
    | cons t rest ih => intro q hq; rw [List.foldl_cons, visit_of_ended hq, ih hq]
  generalize hstate : p.state = state
  generalize hmade : p.inserted.reverse = made
  fun_induction search scan origin answer pending state made generalizing p with
  | case1 state made =>
    rw [List.foldl_nil, ← hmade, hstate, List.reverse_reverse]
  | case2 t rest state made hhit ih =>
    rw [ih hp hstate hmade, List.foldl_append, ← visitAll_eq_foldl, List.foldl_cons,
      visit_of_hit?_eq_none hp hhit]
  | case3 t rest state made hit hhit state' hanswer ih =>
    have hvisit : scan.visit origin answer t p
        = scan.visitAll origin answer t.children (p.offer hit state') := by
      rw [visit_of_hit?_eq_some hp hhit, settle, hstate, hanswer]
    rw [ih (p := p.offer hit state') hp rfl hmade, List.foldl_append, ← visitAll_eq_foldl,
      List.foldl_cons, hvisit]
  | case4 t rest state made hit hhit category state' hanswer hmark ih =>
    have hspan : hit.tree.span = none := by
      rw [tree_of_hit? hhit]
      exact Option.map_eq_none_iff.mp hmark
    have hvisit : scan.visit origin answer t p = p.offer hit state' := by
      rw [visit_of_hit?_eq_some hp hhit, settle, hstate, hanswer]
      simp only [hspan]
    rw [ih (p := p.offer hit state') hp rfl hmade, List.foldl_cons, hvisit]
  | case5 t rest state made hit hhit category state' hanswer mark hmark hfirst =>
    obtain ⟨span, hspan, rfl⟩ := Option.map_eq_some_iff.mp hmark
    have hvisit : scan.visit origin answer t p
        = (p.offer hit state').insert ⟨span, category, origin⟩ true := by
      rw [visit_of_hit?_eq_some hp hhit, settle, hstate, hanswer, tree_of_hit? hhit]
      simp only [hspan, hfirst]
    rw [List.foldl_cons, hvisit, hover rest rfl, ← hmade]
    simp [Progress.insert, Progress.offer]
  | case6 t rest state made hit hhit category state' hanswer mark hmark hfirst ih =>
    obtain ⟨span, hspan, rfl⟩ := Option.map_eq_some_iff.mp hmark
    have hfirst : scan.firstOnly = false := by simpa using hfirst
    have hvisit : scan.visit origin answer t p
        = (p.offer hit state').insert ⟨span, category, origin⟩ false := by
      rw [visit_of_hit?_eq_some hp hhit, settle, hstate, hanswer, tree_of_hit? hhit]
      simp only [hspan, hfirst]
    rw [ih (p := (p.offer hit state').insert ⟨span, category, origin⟩ false) rfl rfl
      (by simp [Progress.insert, Progress.offer, hmade]), List.foldl_cons, hvisit]

theorem run_eq_visitAll (state : σ) (overrides : OverrideSet) (t : Tree) :
    scan.run origin answer state t
      = ((scan.visitAll origin answer t.children (.start state overrides)).inserted,
        (scan.visitAll origin answer t.children (.start state overrides)).state) := by
  rw [visitAll_eq_foldl]
  exact search_eq_foldl_visit (p := .start state overrides) _ rfl

/-! ### What a visit preserves -/

section Invariant

variable {P : Progress σ → Prop}

theorem settle_invariant (hit : Hit) (hoffer : ∀ p state, P p → P (p.offer hit state))
    (hinsert : ∀ p o ended, P p → P (p.insert o ended)) {descend : Progress σ → Progress σ}
    (hdescend : ∀ p, P p → P (descend p)) {p : Progress σ} (hp : P p) :
    P (scan.settle origin answer hit descend p) := by
  rw [settle]
  split
  · next state _ => exact hdescend _ (hoffer p state hp)
  · next category state _ =>
    split
    · exact hoffer p state hp
    · exact hinsert _ _ _ (hoffer p state hp)

theorem visitAll_of_forall_visit {ts : List Tree}
    (hvisit : ∀ t ∈ ts, ∀ p, P p → P (scan.visit origin answer t p)) {p : Progress σ} (hp : P p) :
    P (scan.visitAll origin answer ts p) := by
  rw [visitAll_eq_foldl]
  refine List.foldlRecOn _ _ hp fun q hq t ht => ?_
  exact hvisit t (mem_inOrder.mp ht) q hq

theorem visit_invariant {t : Tree}
    (hoffer : ∀ hit, hit.tree ∈ t.nodes → ∀ p state, P p → P (p.offer hit state))
    (hinsert : ∀ p o ended, P p → P (p.insert o ended)) {p : Progress σ} (hp : P p) :
    P (scan.visit origin answer t p) := by
  induction t using Tree.induction generalizing p with
  | leaf n token =>
    rw [visit]
    split_ifs
    · exact hp
    · exact settle_invariant _ (hoffer _ (Tree.self_mem_nodes _)) hinsert (fun _ => id) hp
    · exact hp
  | node n rule span cs ih =>
    have hchildren : ∀ q, P q → P (scan.visitAll origin answer cs q) := by
      intro q hq
      refine visitAll_of_forall_visit (fun c hc q hq => ih c hc (fun hit hmem => ?_) hq) hq
      exact hoffer hit (Tree.mem_nodes.mpr (.inr ⟨c, hc, hmem⟩))
    rw [visit]
    split_ifs
    · exact hp
    · exact settle_invariant _ (hoffer _ (Tree.self_mem_nodes _)) hinsert hchildren hp
    · exact hchildren p hp

/-- **What offering and inserting preserve, a search preserves.** Only what lies beneath the node
whose children are visited is offered. -/
theorem visitAll_invariant {t : Tree}
    (hoffer : ∀ hit, hit.tree ∈ t.descendants → ∀ p state, P p → P (p.offer hit state))
    (hinsert : ∀ p o ended, P p → P (p.insert o ended)) {p : Progress σ} (hp : P p) :
    P (scan.visitAll origin answer t.children p) := by
  refine visitAll_of_forall_visit (fun c hc q hq => ?_) hp
  refine visit_invariant (fun hit hmem => ?_) hinsert hq
  exact hoffer hit (Tree.mem_descendants.mpr ⟨c, hc, hmem⟩)

end Invariant

/-- The overrides that have been inserted are counted, and held by the set. -/
theorem consistent_visitAll (overrides : OverrideSet) (t : Tree) {p : Progress σ}
    (hp : p.count = p.inserted.length ∧ p.overrides = overrides.extend p.inserted) :
    (scan.visitAll origin answer t.children p).count
        = (scan.visitAll origin answer t.children p).inserted.length ∧
      (scan.visitAll origin answer t.children p).overrides
        = overrides.extend (scan.visitAll origin answer t.children p).inserted := by
  refine visitAll_invariant
    (P := fun q => q.count = q.inserted.length ∧ q.overrides = overrides.extend q.inserted)
    (fun _ _ _ _ hq => hq) ?_ hp
  rintro q o ended ⟨hcount, hset⟩
  constructor
  · simp [Progress.insert, hcount]
  · simp [Progress.insert, hset, OverrideSet.extend]

/-- What is offered lies strictly beneath the node whose children are visited. -/
theorem mem_descendants_of_offered (state : σ) (overrides : OverrideSet) (t : Tree) :
    ∀ hit ∈ (scan.visitAll origin answer t.children (.start state overrides)).offered,
      hit.tree ∈ t.descendants := by
  refine visitAll_invariant (P := fun q => ∀ hit ∈ q.offered, hit.tree ∈ t.descendants)
    ?_ (fun _ _ _ hq => hq) (fun _ h => absurd h List.not_mem_nil)
  intro hit hmem q state hq other hother
  rcases List.mem_append.mp hother with hother | hother
  · exact hq other hother
  · rwa [List.mem_singleton.mp hother]

/-! ### The record of an answer function -/

theorem settle_recording (hit : Hit) {descend : Progress σ → Progress σ}
    {descend' : Progress (σ × List Hit) → Progress (σ × List Hit)}
    (hdescend : ∀ p, descend' p.recorded = (descend p).recorded) (p : Progress σ) :
    scan.settle origin (recording answer) hit descend' p.recorded
      = (scan.settle origin answer hit descend p).recorded := by
  have hanswer : recording answer p.recorded.state hit
      = ((answer p.state hit).1, ((answer p.state hit).2, p.offered ++ [hit])) := rfl
  rw [settle, settle, hanswer]
  rcases answer p.state hit with ⟨_ | category, state⟩
  · exact hdescend (p.offer hit state)
  · cases hit.tree.span with
    | none => rfl
    | some span => rfl

theorem visitAll_recording {ts : List Tree}
    (hvisit : ∀ t ∈ ts, ∀ p : Progress σ,
      scan.visit origin (recording answer) t p.recorded = (scan.visit origin answer t p).recorded)
    (p : Progress σ) :
    scan.visitAll origin (recording answer) ts p.recorded
      = (scan.visitAll origin answer ts p).recorded := by
  induction ts generalizing p with
  | nil => rw [visitAll, visitAll]
  | cons t ts ih =>
    rw [List.forall_mem_cons] at hvisit
    rw [visitAll, visitAll]
    split_ifs
    · rw [ih hvisit.2, hvisit.1]
    · rw [hvisit.1, ih hvisit.2]

/-- The record that an answer function keeps is that of the matches offered. -/
theorem visit_recording (t : Tree) (p : Progress σ) :
    scan.visit origin (recording answer) t p.recorded
      = (scan.visit origin answer t p).recorded := by
  induction t using Tree.induction generalizing p with
  | leaf n token =>
    rw [visit, visit]
    change (if p.ended then _ else _) = _
    split_ifs
    · rfl
    · exact settle_recording _ (fun _ => rfl) p
    · rfl
  | node n rule span cs ih =>
    rw [visit, visit]
    change (if p.ended then _ else _) = _
    split_ifs
    · rfl
    · exact settle_recording _ (visitAll_recording ih) p
    · exact visitAll_recording ih p

end

/-- **A scan is pruned search.** Whatever the scan looks for, in whichever direction and for however
many matches, and whatever the answer function does with its state: the matches that it is offered,
the overrides that are inserted, their number and the set they end up in are those of the recursion,
which counts and inserts them one by one. All that is offered lies strictly beneath the node that
the scan starts from. -/
theorem run_is_pruned_search (scan : Scan) (origin : RuleId)
    (answer : σ → Hit → Option Category × σ) (state : σ) (overrides : OverrideSet) (t : Tree) :
    let made := (scan.run origin answer state t).1
    let q := scan.visitAll origin answer t.children (.start state overrides)
    scan.run origin (recording answer) (state, []) t = (q.inserted, (q.state, q.offered)) ∧
      scan.run origin answer state t = (q.inserted, q.state) ∧
      scan.apply origin answer state t overrides = (q.count, q.overrides, q.state) ∧
      made.length = q.count ∧
      overrides.extend made = q.overrides ∧
      ∀ hit ∈ q.offered, hit.tree ∈ t.descendants ∧ hit.tree ≠ t := by
  intro made q
  have hrun : scan.run origin answer state t = (q.inserted, q.state) :=
    run_eq_visitAll state overrides t
  have hmade : made = q.inserted := congrArg Prod.fst hrun
  have hrecord : scan.visitAll origin (recording answer) t.children (.start (state, []) overrides)
      = q.recorded := visitAll_recording (fun c _ p => visit_recording c p) (.start state overrides)
  have hq : q.count = q.inserted.length ∧ q.overrides = overrides.extend q.inserted :=
    consistent_visitAll overrides t ⟨rfl, rfl⟩
  refine ⟨?_, hrun, ?_, ?_, ?_, ?_⟩
  · rw [run_eq_visitAll (state, []) overrides t, hrecord]
    rfl
  · rw [apply, hrun, hq.1, hq.2]
  · rw [hmade, hq.1]
  · rw [hmade, hq.2]
  · intro hit hhit
    have hmem : hit.tree ∈ t.descendants := mem_descendants_of_offered state overrides t hit hhit
    exact ⟨hmem, Tree.ne_of_mem_descendants hmem⟩

end Scan

end Highlighting
