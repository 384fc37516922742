import Highlighting.Proofs.JsonReading

/-!
# JSON texts inside of JSON texts

A text that is JSON on its own is read as the same value in the place of any value of another text,
as an item of an array for one. The reading on its own runs as before, over what the other text has
open, until its value is complete and is taken into the innermost array or object of the other text.

Two things could go wrong. The strict reading counts what is open, so it could stop at a depth that
is reached only inside of the other text. A text does not say how deep it goes until it has been
read. The proof therefore runs backwards there: `Json.Reader.State.Fits` says of a state that all it
has read so far nests within the limit of the final value, and a step from a state that does not fit
leads to one that does not fit. And a number at the end of the text is not complete before the other
text goes on, which is why `Json.Reader.ReadsAs` says what may follow.

## Main definitions

* `Json.Reader.State.Coherent`: what is true of every state that is reached from the start
* `Json.Reader.State.Fits`: all that has been read nests within a limit
* `Json.Reader.State.inside`: a state in the middle of another one
* `Json.Reader.State.Follows`: a step goes the same way on its own and in the middle of another
  state

## Main results

* `Json.Reader.State.follows_step`: every step does
* `Json.Reader.State.run_inside`: and so does every run that comes to a value
* `Json.Reader.readsAs_of_run`: a text that is JSON on its own is read wherever a value may stand
-/

namespace Highlighting

namespace Json

namespace Reader

/-- Whether the reader can be there only inside of an array or object. -/
def Focus.isNested : Focus → Bool
  | .firstItem | .firstName | .nextName => true
  | .text _ t => t.isName
  | _ => false

/-- The values that an array or object has so far. -/
def Frame.values : Frame → List Json
  | .array items => items
  | .object members _ => members.map (·.2)

/-- What all states have in common that are reached from the start. -/
structure State.Coherent (s : State) : Prop where
  /-- The depth counts what is not yet closed. -/
  depth_eq : s.depth = s.stack.length
  /-- Nothing is open when the whole value is complete. -/
  of_root : s.root.isSome = true → s.stack = [] ∧ s.focus = .after
  /-- A complete value outside of arrays and objects is the whole value. -/
  root_isSome : s.focus = .after → s.stack = [] → s.root.isSome = true
  /-- Names and first items stand inside of objects and arrays. -/
  stack_ne : s.focus.isNested = true → s.stack ≠ []

/-- Arrays and objects that are not yet closed, innermost first, leave room for their values within
a limit of nesting. -/
def FramesFit (depth : Nat) : List Frame → Prop
  | [] => True
  | frame :: outer =>
    FramesFit depth outer ∧ outer.length < depth
      ∧ ∀ v ∈ frame.values, (v.canonical? (depth - (outer.length + 1))).isSome = true

/-- All that has been read is readable and nests within a limit. -/
def State.Fits (depth : Nat) (s : State) : Prop :=
  FramesFit depth s.stack ∧ ∀ v ∈ s.root, (v.canonical? depth).isSome = true

namespace State

/-- A reader that has not yet come to the end of a value, in the middle of another one. -/
def above (s outer : State) : State :=
  { stack := s.stack ++ outer.stack
    depth := s.depth + outer.depth
    root := outer.root
    focus := s.focus }

/-- A reader in the middle of another one, which takes the value when it is complete. -/
def inside (s outer : State) : State :=
  s.root.elim (s.above outer) outer.complete

/-- The results of a step agree on its own and in the middle of another reader, if the step stays
within the limit of nesting. -/
def Follows (outer : State) (depth : Nat) (s : State) (r r' : Except Blame State) : Prop :=
  ∀ s', r = .ok s' →
    s'.Coherent ∧ (s'.Fits depth → s.Fits depth ∧ r' = .ok (s'.inside outer))

variable {s outer : State} {depth : Nat}

theorem inside_of_root_eq_none (h : s.root = none) : s.inside outer = s.above outer := by
  rw [inside, h, Option.elim_none]

theorem Follows.error (b : Blame) (r' : Except Blame State) :
    Follows outer depth s (.error b) r' := by
  intro s' h
  cases h

theorem Follows.ok {s' t : State} (hs : s'.Coherent) (hfits : s'.Fits depth → s.Fits depth)
    (ht : s'.Fits depth → t = s'.inside outer) : Follows outer depth s (.ok s') (.ok t) := by
  intro s'' h
  cases h
  exact ⟨hs, fun h => ⟨hfits h, congrArg Except.ok (ht h)⟩⟩

theorem Follows.refl (hs : s.Coherent) :
    Follows outer depth s (.ok s) (.ok (s.inside outer)) :=
  .ok hs id fun _ => rfl

/-- A step that follows a state behind this one. -/
theorem Follows.of_fits {s' : State} {r r' : Except Blame State}
    (h : Follows outer depth s' r r') (hfits : s'.Fits depth → s.Fits depth) :
    Follows outer depth s r r' := by
  intro s'' hr
  obtain ⟨hs, hnext⟩ := h s'' hr
  exact ⟨hs, fun h => ⟨hfits (hnext h).1, (hnext h).2⟩⟩

/-! ### Complete values -/

section Complete

variable (hdepth : s.depth = s.stack.length) (hroot : s.root = none) (v : Json)

include hdepth hroot

theorem coherent_complete : (s.complete v).Coherent := by
  obtain ⟨_ | ⟨_ | _, _⟩, _, _, _⟩ := s
  all_goals
    cases hroot
    constructor <;> simp_all [complete, Focus.isNested]

theorem complete_above (outer : State) :
    (s.above outer).complete v = (s.complete v).inside outer := by
  obtain ⟨_ | ⟨_ | _, _⟩, _, _, f⟩ := s
  · cases hroot
    cases hdepth
    show ({ outer with depth := 0 + outer.depth, focus := f } : State).complete v = outer.complete v
    rw [Nat.zero_add, complete_refocus]
  · cases hroot
    rfl
  · cases hroot
    rfl

omit hdepth in
theorem fits_complete :
    (s.complete v).Fits depth
      ↔ s.Fits depth ∧ (v.canonical? (depth - s.stack.length)).isSome = true := by
  obtain ⟨_ | ⟨_ | _, _⟩, _, _, _⟩ := s
  all_goals
    cases hroot
    simp [complete, Fits, FramesFit, Frame.values, and_left_comm, and_comm]

theorem follows_complete :
    Follows outer depth s (.ok (s.complete v)) (.ok ((s.above outer).complete v)) :=
  .ok (coherent_complete hdepth hroot v) (fun h => ((fits_complete hroot v).mp h).1)
    fun _ => complete_above hdepth hroot v outer

end Complete

/-! ### Arrays and objects -/

theorem isSome_of_isSome_mapM {α β : Type} {f : α → Option β} {xs : List α}
    (h : (xs.mapM f).isSome = true) : ∀ x ∈ xs, (f x).isSome = true := by
  induction xs with
  | nil => simp
  | cons x xs ih =>
    rw [List.mapM_cons] at h
    cases hx : f x with
    | none => simp [hx] at h
    | some y =>
      cases hxs : xs.mapM f with
      | none => simp [hx, hxs] at h
      | some ys =>
        rw [List.forall_mem_cons]
        exact ⟨by rw [hx, Option.isSome_some], ih (by rw [hxs, Option.isSome_some])⟩

theorem map_snd_of_mapM {members : List (Option String × Json)} {named : List (String × Json)}
    (h : members.mapM member? = some named) :
    named.map (·.2) = members.map (·.2) := by
  induction members generalizing named with
  | nil =>
    cases h
    rfl
  | cons m members ih =>
    obtain ⟨_ | name, v⟩ := m
    · simp [member?] at h
    · cases hrest : members.mapM member? with
      | none => simp [member?, hrest] at h
      | some rest =>
        obtain rfl : (name, v) :: rest = named := by simpa [member?, hrest] using h
        rw [List.map_cons, List.map_cons, ih hrest]

theorem isSome_canonical?_arr {d : Nat} {items : List Json}
    (h : ((Json.arr items).canonical? d).isSome = true) :
    0 < d ∧ ∀ v ∈ items, (v.canonical? (d - 1)).isSome = true := by
  cases d with
  | zero => simp [canonical?] at h
  | succ d =>
    rw [canonical?, Option.isSome_map] at h
    exact ⟨by omega, isSome_of_isSome_mapM h⟩

theorem isSome_canonical?_obj {d : Nat} {members : List (String × Json)}
    (h : ((Json.obj members).canonical? d).isSome = true) :
    0 < d ∧ ∀ v ∈ members.map (·.2), (v.canonical? (d - 1)).isSome = true := by
  cases d with
  | zero => simp [canonical?] at h
  | succ d =>
    rw [canonical?, Option.isSome_map] at h
    refine ⟨by omega, ?_⟩
    rw [List.forall_mem_map]
    intro m hm
    simpa using isSome_of_isSome_mapM h m hm

/-- The values of an array or object take one level of nesting less than the whole. -/
theorem isSome_canonical?_values {frame : Frame} {d : Nat}
    (h : (frame.close.canonical? d).isSome = true) :
    0 < d ∧ ∀ v ∈ frame.values, (v.canonical? (d - 1)).isSome = true := by
  cases frame with
  | array items =>
    obtain ⟨hd, hitems⟩ := isSome_canonical?_arr h
    exact ⟨hd, fun v hv => hitems v (List.mem_reverse.mpr hv)⟩
  | object members name =>
    rw [Frame.close_object] at h
    cases hnamed : members.reverse.mapM member? with
    | none =>
      rw [hnamed] at h
      cases d <;> simp [canonical?] at h
    | some named =>
      rw [hnamed] at h
      obtain ⟨hd, hvalues⟩ := isSome_canonical?_obj h
      rw [map_snd_of_mapM hnamed, List.map_reverse] at hvalues
      exact ⟨hd, fun v hv => hvalues v (List.mem_reverse.mpr hv)⟩

theorem follows_pop (hs : s.Coherent) (hroot : s.root = none) (hstack : s.stack ≠ []) :
    Follows outer depth s (.ok s.pop) (.ok (s.above outer).pop) := by
  obtain ⟨stack, d, root, focus⟩ := s
  cases stack with
  | nil => exact absurd rfl hstack
  | cons frame rest =>
    cases hroot
    obtain rfl : d = rest.length + 1 := hs.depth_eq
    have habove : ((⟨frame :: rest, rest.length + 1, none, focus⟩ : State).above outer).pop
        = ((⟨rest, rest.length, none, focus⟩ : State).above outer).complete frame.close := by
      have hd : rest.length + 1 + outer.depth - 1 = rest.length + outer.depth := by omega
      show State.complete ⟨rest ++ outer.stack, rest.length + 1 + outer.depth - 1, _, _⟩ _ = _
      rw [hd]
      rfl
    rw [habove]
    refine .ok (coherent_complete rfl rfl _) (fun hfits => ?_)
      fun _ => complete_above rfl rfl _ outer
    obtain ⟨⟨hrest, _⟩, hclose⟩ := (fits_complete rfl _).mp hfits
    obtain ⟨hroom, hvalues⟩ := isSome_canonical?_values hclose
    exact ⟨⟨hrest, Nat.lt_of_sub_pos hroom, hvalues⟩, by simp⟩

theorem within_above (s outer : State) (frame : Frame) (f : Focus) :
    (s.above outer).within frame f = (s.within frame f).above outer := by
  have hdepth : s.depth + outer.depth + 1 = s.depth + 1 + outer.depth := Nat.add_right_comm ..
  rw [within, above, above, hdepth]
  rfl

theorem follows_push (hs : s.Coherent) (hroot : s.root = none)
    (hdepth : outer.depth + depth ≤ maxDepth) {frame : Frame} {f : Focus} (hf : f ≠ .after) :
    Follows outer depth s (s.push true frame f) ((s.above outer).push true frame f) := by
  by_cases hfull : maxDepth ≤ s.depth
  · have hpush : s.push true frame f = .error .this := by
      rw [push, if_pos (by simpa using hfull)]
    rw [hpush]
    exact .error _ _
  · rw [push_eq_within (fun _ => by omega)]
    rintro _ ⟨⟩
    have hcoherent : (s.within frame f).Coherent := by
      refine ⟨congrArg (· + 1) hs.depth_eq, ?_, fun h => absurd h hf, fun _ => by simp [within]⟩
      intro h
      simp [within, hroot] at h
    refine ⟨hcoherent, ?_⟩
    rintro ⟨⟨hrest, hlt, -⟩, -⟩
    refine ⟨⟨hrest, by simp [hroot]⟩, ?_⟩
    -- What is opened becomes a part of the final value, so there is room for it in the other text.
    have hroom : (s.above outer).depth + 1 ≤ maxDepth := by
      show s.depth + outer.depth + 1 ≤ maxDepth
      rw [hs.depth_eq]
      omega
    rw [push_eq_within (fun _ => hroom), within_above,
      inside_of_root_eq_none (s := s.within frame f) hroot]

theorem follows_refocus (hs : s.Coherent) (hroot : s.root = none) (f : Focus) (hf : f ≠ .after)
    (hnested : f.isNested = true → s.stack ≠ []) :
    Follows outer depth s (.ok { s with focus := f }) (.ok { s.above outer with focus := f }) := by
  refine .ok ⟨hs.depth_eq, ?_, fun h => absurd h hf, hnested⟩ id fun _ => ?_
  · intro h
    simp [hroot] at h
  · exact (inside_of_root_eq_none (s := { s with focus := f }) hroot).symm

/-! ### Characters -/

theorem Follows.ite {p : Prop} [Decidable p] {r₁ r₁' r₂ r₂' : Except Blame State}
    (h₁ : p → Follows outer depth s r₁ r₁') (h₂ : ¬ p → Follows outer depth s r₂ r₂') :
    Follows outer depth s (if p then r₁ else r₂) (if p then r₁' else r₂') := by
  split_ifs with hp
  · exact h₁ hp
  · exact h₂ hp

section Characters

variable (hs : s.Coherent) (hroot : s.root = none)

include hs hroot

theorem follows_begin (hdepth : outer.depth + depth ≤ maxDepth) (c : Char) :
    Follows outer depth s (s.begin true c) ((s.above outer).begin true c) := by
  unfold begin
  split
  case h_5 => exact follows_push hs hroot hdepth (by simp)
  case h_6 => exact follows_push hs hroot hdepth (by simp)
  case h_9 =>
    exact .ite (fun _ => follows_refocus hs hroot _ (by simp) (by simp [Focus.isNested]))
      fun _ => .error _ _
  all_goals exact follows_refocus hs hroot _ (by simp) (by simp [Focus.isNested])

theorem follows_beginName (hstack : s.stack ≠ []) (c : Char) :
    Follows outer depth s (s.beginName c) ((s.above outer).beginName c) :=
  .ite (fun _ => follows_refocus hs hroot _ (by simp) fun _ => hstack) fun _ => .error _ _

end Characters

/-- What follows a complete value. -/
theorem follows_goOn (hs : s.Coherent) (hafter : s.focus = .after) (c : Char) :
    Follows outer depth s (s.goOn c) ((s.inside outer).goOn c) := by
  refine .ite (fun _ => .refl hs) fun _ => ?_
  by_cases hroot : s.root = none
  · rw [inside_of_root_eq_none hroot]
    obtain ⟨_ | ⟨frame, rest⟩, d, root, focus⟩ := s
    · have hsome := hs.root_isSome hafter rfl
      rw [hroot] at hsome
      cases hsome
    · cases frame with
      | array items =>
        exact .ite (fun _ => follows_refocus hs hroot .value (by simp) (by simp [Focus.isNested]))
          fun _ => .ite (fun _ => follows_pop hs hroot (by simp)) fun _ => .error _ _
      | object members name =>
        exact .ite (fun _ => follows_refocus hs hroot .nextName (by simp) (by simp))
          fun _ => .ite (fun _ => follows_pop hs hroot (by simp)) fun _ => .error _ _
  · -- The whole value is complete, so only spaces may follow.
    rw [(hs.of_root (Option.isSome_iff_ne_none.mpr hroot)).1]
    exact .error _ _

section Values

variable (hs : s.Coherent) (hroot : s.root = none)

include hs hroot

/-! ### Numbers -/

theorem follows_endNumeral (x : Numeral) (c : Char) :
    Follows outer depth s (s.endNumeral true x c) ((s.above outer).endNumeral true x c) := by
  by_cases hx : finishNumeral x = .unreadable
  · have herror : s.endNumeral true x c = .error .previous := by
      simp [endNumeral, completeNumeral, hx, bind, Except.bind]
    rw [herror]
    exact .error _ _
  · have hcomplete (s : State) : s.endNumeral true x c = (s.complete (finishNumeral x)).goOn c := by
      rw [endNumeral, completeNumeral_of_finish rfl hx]
      rfl
    rw [hcomplete, hcomplete, complete_above hs.depth_eq hroot]
    exact (follows_goOn (coherent_complete hs.depth_eq hroot _) (focus_complete s _) c).of_fits
      fun h => ((fits_complete hroot _).mp h).1

theorem follows_stepNumeral (phase : NumeralPhase) (x : Numeral) (c : Char) :
    Follows outer depth s (s.stepNumeral true phase x c)
      ((s.above outer).stepNumeral true phase x c) := by
  have hgo (phase : NumeralPhase) (x : Numeral) : Follows outer depth s
      (.ok { s with focus := .numeral phase x })
      (.ok { s.above outer with focus := .numeral phase x }) :=
    follows_refocus hs hroot _ (by simp) (by simp [Focus.isNested])
  have hdigit (phase : NumeralPhase) (x : Numeral) : Follows outer depth s
      (if c.isDigit then .ok { s with focus := .numeral phase x } else .error .this)
      (if c.isDigit then .ok { s.above outer with focus := .numeral phase x } else .error .this) :=
    .ite (fun _ => hgo phase x) fun _ => .error _ _
  have hend : Follows outer depth s (s.endNumeral true x c) ((s.above outer).endNumeral true x c) :=
    follows_endNumeral hs hroot x c
  cases phase with
  | minus => exact .ite (fun _ => hgo _ _) fun _ => hdigit _ _
  | zero =>
    exact .ite (fun _ => .error _ _) fun _ => .ite (fun _ => hgo _ _) fun _ =>
      .ite (fun _ => hgo _ _) fun _ => hend
  | whole =>
    exact .ite (fun _ => hgo _ _) fun _ => .ite (fun _ => hgo _ _) fun _ =>
      .ite (fun _ => hgo _ _) fun _ => hend
  | point => exact hdigit _ _
  | fraction => exact .ite (fun _ => hgo _ _) fun _ => .ite (fun _ => hgo _ _) fun _ => hend
  | mark => exact .ite (fun _ => hgo _ _) fun _ => .ite (fun _ => hgo _ _) fun _ => hdigit _ _
  | sign => exact hdigit _ _
  | exponent => exact .ite (fun _ => hgo _ _) fun _ => hend

/-! ### Strings -/

section Text

variable {t : OpenText} (hname : t.isName = true → s.stack ≠ [])

include hname

theorem follows_inText (c : Char) :
    Follows outer depth s (.ok (s.inText t c)) (.ok ((s.above outer).inText t c)) :=
  follows_refocus hs hroot _ (by simp) hname

theorem follows_completeText :
    Follows outer depth s (.ok (s.completeText t)) (.ok ((s.above outer).completeText t)) := by
  unfold completeText
  by_cases hn : t.isName = true
  · have hstack := hname hn
    rw [if_pos hn, if_pos hn]
    obtain ⟨_ | ⟨_ | ⟨members, name⟩, rest⟩, d, root, focus⟩ := s
    · exact absurd rfl hstack
    · -- A name inside of an array is never read; the reader would stay where it is.
      show Follows outer depth _ (.ok _) (.ok (State.above _ outer))
      rw [← inside_of_root_eq_none hroot]
      exact .refl hs
    · cases hroot
      exact .ok ⟨hs.depth_eq, by simp, by simp, by simp⟩ id fun _ => rfl
  · rw [if_neg hn, if_neg hn]
    exact follows_complete hs.depth_eq hroot _

theorem follows_stepPlain (c : Char) :
    Follows outer depth s (s.stepPlain t c) ((s.above outer).stepPlain t c) :=
  .ite (fun _ => follows_completeText hs hroot hname) fun _ =>
    .ite (fun _ => follows_refocus hs hroot _ (by simp) hname) fun _ =>
      .ite (fun _ => .error _ _) fun _ => follows_inText hs hroot hname c

theorem follows_stepEscape (c : Char) :
    Follows outer depth s (s.stepEscape t c) ((s.above outer).stepEscape t c) := by
  unfold stepEscape
  split
  case h_9 => exact follows_refocus hs hroot _ (by simp) hname
  case h_10 => exact .error _ _
  all_goals exact follows_inText hs hroot hname _

theorem follows_takeNumber (high : Option Nat) (n : Nat) :
    Follows outer depth s (s.takeNumber true t high n)
      ((s.above outer).takeNumber true t high n) := by
  cases high with
  | some h =>
    exact .ite (fun _ => follows_inText hs hroot hname _) fun _ => .error _ _
  | none =>
    exact .ite (fun _ => follows_refocus hs hroot _ (by simp) hname) fun _ =>
      .ite (fun _ => .error _ _) fun _ => follows_inText hs hroot hname _

theorem follows_stepText (phase : TextPhase) (c : Char) :
    Follows outer depth s (s.stepText true phase t c)
      ((s.above outer).stepText true phase t c) := by
  have hgo (phase : TextPhase) : Follows outer depth s (.ok { s with focus := .text phase t })
      (.ok { s.above outer with focus := .text phase t }) :=
    follows_refocus hs hroot _ (by simp) hname
  cases phase with
  | plain => exact follows_stepPlain hs hroot hname c
  | escape => exact follows_stepEscape hs hroot hname c
  | hex remaining number high =>
    refine .ite (fun _ => hgo _) fun _ => ?_
    cases number.bind fun n => (Text.hexDigit? c).map (16 * n + ·) with
    | none => exact .error _ _
    | some n => exact follows_takeNumber hs hroot hname high n
  | pair high => exact .ite (fun _ => hgo _) fun _ => .error _ _
  | pairEscape high => exact .ite (fun _ => hgo _) fun _ => .error _ _

end Text

end Values

/-! ### Whole texts -/

theorem focus_inside (hs : s.Coherent) (outer : State) : (s.inside outer).focus = s.focus := by
  cases hroot : s.root with
  | none => rw [inside_of_root_eq_none hroot, above]
  | some v =>
    rw [inside, hroot, Option.elim_some, focus_complete]
    exact (hs.of_root (by rw [hroot, Option.isSome_some])).2.symm

theorem follows_step (hs : s.Coherent) (hdepth : outer.depth + depth ≤ maxDepth) (c : Char) :
    Follows outer depth s (s.step true c) ((s.inside outer).step true c) := by
  by_cases hafter : s.focus = .after
  · have hgoOn : Follows outer depth s (s.goOn c) ((s.inside outer).goOn c) :=
      follows_goOn hs hafter c
    rwa [step, step, focus_inside hs, hafter]
  · have hroot : s.root = none := by
      by_contra hroot
      exact hafter (hs.of_root (Option.isSome_iff_ne_none.mpr hroot)).2
    rw [inside_of_root_eq_none hroot]
    have hstay : Follows outer depth s (.ok s) (.ok (s.above outer)) := by
      rw [← inside_of_root_eq_none hroot]
      exact .refl hs
    have hbegin : Follows outer depth s (s.begin true c) ((s.above outer).begin true c) :=
      follows_begin hs hroot hdepth c
    obtain ⟨stack, d, root, focus⟩ := s
    cases focus with
    | value => exact .ite (fun _ => hstay) fun _ => hbegin
    | firstItem =>
      exact .ite (fun _ => hstay) fun _ =>
        .ite (fun _ => follows_pop hs hroot (hs.stack_ne rfl)) fun _ => hbegin
    | firstName =>
      exact .ite (fun _ => hstay) fun _ =>
        .ite (fun _ => follows_pop hs hroot (hs.stack_ne rfl)) fun _ =>
          follows_beginName hs hroot (hs.stack_ne rfl) c
    | nextName =>
      exact .ite (fun _ => hstay) fun _ => follows_beginName hs hroot (hs.stack_ne rfl) c
    | colon =>
      exact .ite (fun _ => hstay) fun _ =>
        .ite (fun _ => follows_refocus hs hroot .value (by simp) (by simp [Focus.isNested]))
          fun _ => .error _ _
    | after => exact absurd rfl hafter
    | word missing v =>
      cases missing with
      | nil => exact .error _ _
      | cons m missing =>
        exact .ite (fun _ => .error _ _) fun _ =>
          .ite (fun _ => follows_complete hs.depth_eq hroot v) fun _ =>
            follows_refocus hs hroot (.word missing v) (by simp) (by simp [Focus.isNested])
    | numeral phase x => exact follows_stepNumeral hs hroot phase x c
    | text phase t => exact follows_stepText hs hroot hs.stack_ne phase c

theorem root_complete_eq_some {v w : Json} (hroot : s.root = none)
    (h : (s.complete v).root = some w) : s.stack = [] ∧ v = w := by
  obtain ⟨_ | ⟨_ | _, _⟩, _, _, _⟩ := s <;> simp_all [complete]

/-- How a text can end: behind a complete value, or behind a number that is the whole value. -/
theorem of_finish?_eq_some (hs : s.Coherent) {v : Json} (h : s.finish? true = some v) :
    s.root = some v ∨ s.root = none ∧ s.stack = []
      ∧ ∃ phase x, s.focus = .numeral phase x ∧ phase.canEnd = true ∧ finishNumeral x = v
        ∧ v ≠ .unreadable := by
  cases hf : s.focus with
  | after =>
    rw [finish?, hf] at h
    exact .inl h
  | numeral phase x =>
    have hroot : s.root = none := by
      by_contra hroot
      have hafter := (hs.of_root (Option.isSome_iff_ne_none.mpr hroot)).2
      rw [hf] at hafter
      cases hafter
    have hend : phase.canEnd = true
        ∧ ∃ s', s.completeNumeral true x = .ok s' ∧ s'.root = some v := by
      rw [finish?, hf] at h
      cases hc : s.completeNumeral true x with
      | error b => cases phase <;> simp [hc] at h
      | ok s' => cases phase <;> simp_all [NumeralPhase.canEnd]
    obtain ⟨hphase, s', hcomplete, hs'⟩ := hend
    by_cases hx : finishNumeral x = .unreadable
    · simp [completeNumeral, hx] at hcomplete
    · rw [completeNumeral_of_finish rfl hx] at hcomplete
      cases hcomplete
      obtain ⟨hstack, rfl⟩ := root_complete_eq_some hroot hs'
      exact .inr ⟨hroot, hstack, phase, x, rfl, hphase, rfl, hx⟩
  | _ => simp [finish?, hf] at h

theorem run_inside (hdepth : outer.depth + depth ≤ maxDepth) {text : List Char} {v : Json}
    (hs : s.Coherent) {m : Nat} (h : s.run true text m = .ok v)
    (hv : (v.canonical? depth).isSome = true) {rest : List Char} (hrest : Ends rest) (n : Nat) :
    s.Fits depth ∧ (s.inside outer).run true (text ++ rest) n
      = (outer.complete v).run true rest (n + text.length) := by
  -- Induction on the text. The step lemma needs to know that the state behind a step fits, and the
  -- induction hypothesis says so, because that the state fits is proved along with the rest.
  induction text generalizing s m n with
  | nil =>
    have hfinish : s.finish? true = some v := by
      rw [run] at h
      cases hfinish : s.finish? true with
      | none => simp [hfinish] at h
      | some w => simpa [hfinish] using h
    rcases of_finish?_eq_some hs hfinish with hroot | ⟨hroot, hstack, phase, x, hf, hp, hx, hread⟩
    · have hstack : s.stack = [] := (hs.of_root (by rw [hroot, Option.isSome_some])).1
      refine ⟨⟨by rw [hstack]; trivial, by simpa [hroot] using hv⟩, ?_⟩
      rw [inside, hroot]
      rfl
    · refine ⟨⟨by rw [hstack]; trivial, by simp [hroot]⟩, ?_⟩
      have hinside : s.inside outer = { outer with focus := .numeral phase x } := by
        rw [inside_of_root_eq_none hroot, above, hs.depth_eq, hstack, hf]
        simp
      rw [hinside]
      exact run_numeral outer hp hx hread hrest n
  | cons c text ih =>
    rw [run] at h
    split at h
    · next s' hstep =>
      obtain ⟨hs', hnext⟩ := follows_step hs hdepth c s' hstep
      obtain ⟨hfits, hrun⟩ := ih hs' h (n + 1)
      obtain ⟨hfits, hstep'⟩ := hnext hfits
      refine ⟨hfits, ?_⟩
      rw [List.cons_append, run_of_step hstep', hrun, List.length_cons, Nat.add_right_comm,
        Nat.add_assoc]
    · cases h
    · cases h

end State

/-- Where a value has to follow, a text that is JSON on its own is read as behind the beginning of
an array: it does not begin with what would end the array. -/
theorem State.run_refocus {s : State} (hs : s.WantsValue) {text : List Char} {v : Json} {m : Nat}
    (h : ({} : State).run true text m = .ok v) (rest : List Char) (n : Nat) :
    s.run true (text ++ rest) n = { s with focus := .value }.run true (text ++ rest) n := by
  induction text generalizing m n with
  | nil => cases h
  | cons c text ih =>
    by_cases hspace : isSpace c = true
    · have hempty : ({} : State).step true c = .ok {} := if_pos hspace
      have hvalue : ({ s with focus := .value } : State).step true c
          = .ok { s with focus := .value } := if_pos hspace
      have hstay : s.step true c = .ok s := by
        rcases hs with hs | hs <;> rw [step, hs] <;> exact if_pos hspace
      rw [run_of_step hempty] at h
      rw [List.cons_append, run_of_step hstay, run_of_step hvalue, ih h]
    · rw [Bool.not_eq_true] at hspace
      have hc : c ≠ ']' := by
        rintro rfl
        cases h
      have hbegin : ({ s with focus := .value } : State).begin true c = s.begin true c := by
        unfold begin
        split <;> rfl
      rw [List.cons_append, run, run, step_of_wantsValue hs hspace hc,
        step_of_wantsValue (.inl rfl) hspace hc, hbegin]

/-- A text that is JSON on its own is read in the same way wherever a value may stand. -/
theorem readsAs_of_run {text : List Char} {v : Json} {m : Nat}
    (h : ({} : State).run true text m = .ok v) {depth : Nat}
    (hv : (v.canonical? depth).isSome = true) : ReadsAs true depth text v := by
  intro s hs hdepth rest hrest n
  have hcoherent : ({} : State).Coherent := ⟨rfl, by simp, by simp, by simp [Focus.isNested]⟩
  have hinside : ({} : State).inside s = { s with focus := .value } := by
    show (⟨[] ++ s.stack, 0 + s.depth, s.root, .value⟩ : State) = _
    rw [List.nil_append, Nat.zero_add]
  rw [State.run_refocus hs h, ← hinside]
  exact (State.run_inside (hdepth rfl) hcoherent h hv hrest n).2

end Reader

end Json

end Highlighting
