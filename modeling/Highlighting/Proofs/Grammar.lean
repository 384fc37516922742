import Highlighting.Proofs.Brackets
import Highlighting.Proofs.Parses

/-!
# The grammar of events

A builder checks its events one at a time against the state that the events before have left: the
productions that are open, whether the tree is finished, and what is left of the source. So what it
accepts is buried in the state. Said of the events themselves, without a state, it is three
conditions that have nothing to do with each other: the productions are one pair of brackets with
balanced brackets inside, the visible tokens stand inside that pair, and the source spells the texts
of the tokens. `builder_accepts_grammar` is the equivalence.

It is shown for the replay, where an event that cannot be taken ends everything, and carried over to
the builder, which has an error exactly when the replay stops (`Builder.error_run_iff`). All that a
state of the replay knows of the productions is how many have begun and how many have ended
(`Parse.State.Tallies`), and all it knows of the source is what is left behind the texts so far. The
two do not interact, so whether a step can be taken splits into whether its event fits behind the
events before it and whether the source goes on with its text.

Hidden tokens may stand anywhere, before and behind the outermost production too. A token with a
place is not looked for in the source, so for events with places there is no third condition to
state; that the first error is final, and how events without an error end, holds for them all the
same. The first error is final since a builder that has one ignores every event
(`Builder.run_of_error`), and the one that it has is that of the first event that fails
(`Builder.exists_first_error`).

## Main definitions

* `Parse.texts`: the texts of the tokens that events report
* `Parse.State.Tallies`: what a state knows of the events before it
* `Parse.Unplaced`: events that report tokens by their texts alone

## Main results

* `Parse.State.Tallies.exists_step`: when a step can be taken
* `Parse.exists_replay`: when events can be replayed
* `Builder.run_of_error`, `Builder.exists_first_error`: the first error is final
* `Builder.build_of_error_eq_none`: how events without an error end
* `builder_accepts_grammar`
-/

namespace Highlighting

namespace Parse

/-- The texts of the tokens that are reported, hidden ones included. -/
def texts (events : List Event) : List String := (events.filterMap Event.lexeme?).map (·.text)

variable {events before after : List Event} {e : Event}

@[simp] theorem texts_append : texts (before ++ after) = texts before ++ texts after := by
  simp [texts]

/-! ### States and the events before them -/

variable {source : String} {s s' : State}

namespace State

/-- The productions of a state are those that the events before it have begun. -/
structure Tallies (events : List Event) (s : State) : Prop where
  /-- What has begun and not ended is open. -/
  opened_eq : s.opened.length + ended events = begun events
  /-- When nothing is open, the tree is finished if it has been begun. -/
  root_iff : s.opened = [] → (s.root.isSome ↔ 0 < begun events)

theorem tallies_initial (source : String) : (initial source).Tallies [] where
  opened_eq := rfl
  root_iff _ := by simp [initial, begun, brackets]

theorem Tallies.step (hs : s.Tallies events) (h : s.Step source e s') :
    s'.Tallies (events ++ [e]) := by
  have hopened := hs.opened_eq
  cases h with
  | @enter r hnone =>
    have hbegun : begun (events ++ [.enter r]) = begun events + 1 := begun_append
    have hended : ended (events ++ [.enter r]) = ended events := ended_append
    exact ⟨by rw [hbegun, hended, List.length_cons]; omega, by simp⟩
  | @token l t top below ht htop =>
    have hbegun : begun (events ++ [.token l]) = begun events := begun_append
    have hended : ended (events ++ [.token l]) = ended events := ended_append
    rw [htop] at hopened
    exact ⟨by rw [hbegun, hended]; exact hopened, by simp⟩
  | @hidden l t ht =>
    have hbegun : begun (events ++ [.hidden l]) = begun events := begun_append
    have hended : ended (events ++ [.hidden l]) = ended events := ended_append
    exact ⟨by rw [hbegun, hended]; exact hopened, by rw [hbegun]; exact hs.root_iff⟩
  | @leaveRoot top htop =>
    have hbegun : begun (events ++ [.leave]) = begun events := begun_append
    have hended : ended (events ++ [.leave]) = ended events + 1 := ended_append
    rw [htop, List.length_singleton] at hopened
    exact ⟨by rw [hbegun, hended, List.length_nil]; omega,
      fun _ => iff_of_true rfl (by omega)⟩
  | @leaveInner top around below htop =>
    have hbegun : begun (events ++ [.leave]) = begun events := begun_append
    have hended : ended (events ++ [.leave]) = ended events + 1 := ended_append
    rw [htop, List.length_cons, List.length_cons] at hopened
    exact ⟨by rw [hbegun, hended, List.length_cons]; omega, by simp⟩

theorem Tallies.opened_eq_nil_iff (hs : s.Tallies events) :
    s.opened = [] ↔ begun events = ended events := by
  have := hs.opened_eq
  rw [← List.length_eq_zero_iff]
  omega

theorem Tallies.opened_ne_nil_iff (hs : s.Tallies events) :
    s.opened ≠ [] ↔ ended events < begun events := by
  have := hs.opened_eq
  rw [← List.length_pos_iff]
  omega

theorem exists_step_enter {r : RuleId} :
    (∃ s', s.step (.enter r) = .ok s') ↔ (s.opened = [] → s.root.isSome = false) := by
  simp only [step]
  split_ifs with h
  · simpa [Option.isSome_iff_ne_none] using h
  · simpa using h

theorem exists_step_token (hs : s.Reads source) {l : Lexeme} :
    (∃ s', s.step (.token l) = .ok s') ↔ s.opened ≠ [] ∧ ∃ x, s.take l = .ok x := by
  simp only [step]
  cases htake : s.take l with
  | error err => simp [bind, Except.bind]
  | ok x =>
    obtain ⟨t, s₁⟩ := x
    obtain ⟨-, rfl⟩ := takes_of_take hs htake
    cases hopened : s.opened <;> simp [bind, Except.bind, behind, hopened]

theorem exists_step_hidden {l : Lexeme} :
    (∃ s', s.step (.hidden l) = .ok s') ↔ ∃ x, s.take l = .ok x := by
  simp only [step]
  cases s.take l <;> simp [bind, Except.bind]

theorem exists_step_leave : (∃ s', s.step .leave = .ok s') ↔ s.opened ≠ [] := by
  simp only [step]
  rcases s.opened with _ | ⟨top, _ | ⟨around, below⟩⟩ <;> simp

/-- **A step can be taken exactly if its event fits behind the events before it** and, if it reports
a token, that token can be taken. -/
theorem Tallies.exists_step (hs : s.Tallies events) (hreads : s.Reads source) :
    (∃ s', s.step e = .ok s') ↔
      e.FitsBehind events ∧ ∀ l, e.lexeme? = some l → ∃ x, s.take l = .ok x := by
  cases e with
  | enter r =>
    have hfits : (s.opened = [] → s.root.isSome = false) ↔
        (begun events = ended events → begun events = 0) := by
      rw [← hs.opened_eq_nil_iff]
      refine imp_congr_right fun hnil => ?_
      rw [Bool.eq_false_iff, ne_eq, hs.root_iff hnil, Nat.pos_iff_ne_zero, not_not]
    simpa [exists_step_enter, Event.FitsBehind, Event.lexeme?] using hfits
  | token l =>
    simp [exists_step_token hreads, hs.opened_ne_nil_iff, Event.FitsBehind, Event.lexeme?]
  | hidden l => simp [exists_step_hidden, Event.FitsBehind, Event.lexeme?]
  | leave => simp [exists_step_leave, hs.opened_ne_nil_iff, Event.FitsBehind, Event.lexeme?]

/-- **How a replay ends**: with what is open, with nothing at all, or with a tree. -/
theorem Tallies.finish (hs : s.Tallies events) :
    (ended events < begun events → s.finish = .error (.unbalanced (begun events - ended events))) ∧
      (begun events = 0 → s.finish = .error .noRoot) ∧
      (0 < begun events → ended events = begun events → ∃ p, s.finish = .ok p) := by
  have hcount := hs.opened_eq
  refine ⟨fun hlt => ?_, fun hzero => ?_, fun hpos heq => ?_⟩
  · have hopened := hs.opened_ne_nil_iff.mpr hlt
    rw [State.finish, if_pos (by simpa using hopened), ← hcount, Nat.add_sub_cancel]
  · have hopened : s.opened = [] := List.length_eq_zero_iff.mp (by omega)
    have hroot : s.root = none := by
      have := (hs.root_iff hopened).not.mpr (by omega)
      simpa using this
    simp [State.finish, hopened, hroot]
  · have hopened := hs.opened_eq_nil_iff.mpr heq.symm
    obtain ⟨root, hroot⟩ := Option.isSome_iff_exists.mp ((hs.root_iff hopened).mpr hpos)
    exact ⟨⟨root, s.stream.reverse⟩, by simp [State.finish, hopened, hroot]⟩

/-- What is left behind a token that is found by its text. -/
theorem Finds.spells {t : Token} (hs : s.Reads source) (h : s.Finds t) :
    Text.Spells s.rest [t.text] (source.toList.drop (t.span.stop + 1)) := by
  obtain ⟨gap, rest, hgap, hsolid, hsplit, hstart, hstop⟩ := h
  refine Text.spells_cons.mpr ⟨hsolid, gap, rest, hgap, hsplit, Text.spells_nil.mpr ?_⟩
  rw [hstop, hstart, Nat.add_assoc, ← List.drop_drop, ← hs.rest_eq, hsplit, ← List.drop_drop,
    List.drop_left, ← String.length_toList, List.drop_left]

/-- A step spells the text that its event reports. -/
theorem Step.spells (hs : s.Reads source) (h : s.Step source e s')
    (hplace : ∀ l, e.lexeme? = some l → l.place = none) :
    Text.Spells s.rest (texts [e]) s'.rest := by
  have hs' := h.reads hs
  rw [hs'.rest_eq]
  rcases h.stream_eq with ⟨he, -, hcursor⟩ | ⟨l, t, parent, he, ht, -, hcursor⟩
  · rw [hcursor, texts, List.filterMap_cons_none he]
    exact Text.spells_nil.mpr hs.rest_eq
  · rw [hcursor, texts, List.filterMap_cons_some he, List.map_cons, ← ht.reports.text_eq]
    exact (ht.finds (hplace l he)).spells hs

/-- The token that an event reports by its text can be taken exactly if the source spells it. -/
theorem exists_take_iff (hplace : ∀ l, e.lexeme? = some l → l.place = none) :
    (∀ l, e.lexeme? = some l → ∃ x, s.take l = .ok x) ↔
      ∃ rest, Text.Spells s.rest (texts [e]) rest := by
  cases he : e.lexeme? with
  | none => simp [texts, he]
  | some l => simp [texts, he, take, hplace l he, exists_locate_eq_ok, -Prod.exists]

end State

theorem tallies_of_replay (h : replay source events = .ok s) : s.Tallies events := by
  induction events using List.reverseRecOn generalizing s with
  | nil =>
    obtain rfl := Except.ok.inj h
    exact State.tallies_initial source
  | append_singleton events e ih =>
    obtain ⟨s₁, hrun, hstep⟩ := replay_concat_eq_ok.mp h
    exact (ih hrun).step (State.step_of_step_eq_ok (sound_of_replay hrun).reads hstep)

/-- No event reports a place. -/
def Unplaced (events : List Event) : Prop :=
  ∀ l ∈ events.filterMap Event.lexeme?, l.place = none

instance (events : List Event) : Decidable (Unplaced events) :=
  inferInstanceAs (Decidable (∀ l ∈ events.filterMap Event.lexeme?, l.place = none))

theorem unplaced_concat : Unplaced (events ++ [e]) ↔
    Unplaced events ∧ ∀ l, e.lexeme? = some l → l.place = none := by
  simp [Unplaced, or_imp, forall_and]

/-- A replay spells the texts that its events report, and leaves the rest of the source. -/
theorem spells_of_replay (hplace : Unplaced events) (h : replay source events = .ok s) :
    Text.Spells source.toList (texts events) s.rest := by
  induction events using List.reverseRecOn generalizing s with
  | nil =>
    obtain rfl := Except.ok.inj h
    exact Text.spells_nil.mpr rfl
  | append_singleton events e ih =>
    obtain ⟨hevents, he⟩ := unplaced_concat.mp hplace
    obtain ⟨s₁, hrun, hstep⟩ := replay_concat_eq_ok.mp h
    have hreads := (sound_of_replay hrun).reads
    rw [texts_append]
    exact Text.spells_append.mpr
      ⟨s₁.rest, ih hevents hrun, (State.step_of_step_eq_ok hreads hstep).spells hreads he⟩

/-- **A replay goes through exactly if its events fit and the source spells their texts.** -/
theorem exists_replay (hplace : Unplaced events) : (∃ s, replay source events = .ok s) ↔
    Fitting events ∧ ∃ rest, Text.Spells source.toList (texts events) rest := by
  induction events using List.reverseRecOn with
  | nil => exact iff_of_true ⟨_, rfl⟩ ⟨fitting_nil, _, Text.spells_nil.mpr rfl⟩
  | append_singleton events e ih =>
    obtain ⟨hevents, he⟩ := unplaced_concat.mp hplace
    have hlast : ∀ {s}, replay source events = .ok s → ((∃ s', s.step e = .ok s') ↔
        e.FitsBehind events ∧ ∃ rest, Text.Spells s.rest (texts [e]) rest) := by
      intro s hrun
      rw [(tallies_of_replay hrun).exists_step (sound_of_replay hrun).reads,
        State.exists_take_iff he]
    rw [fitting_concat, texts_append]
    constructor
    · rintro ⟨s', h⟩
      obtain ⟨s, hrun, hstep⟩ := replay_concat_eq_ok.mp h
      refine ⟨⟨((ih hevents).mp ⟨s, hrun⟩).1, ((hlast hrun).mp ⟨s', hstep⟩).1⟩, s'.rest, ?_⟩
      rw [← texts_append]
      exact spells_of_replay hplace h
    · rintro ⟨⟨hfitting, hfits⟩, rest, hspells⟩
      obtain ⟨mid, hmid, hrest⟩ := Text.spells_append.mp hspells
      obtain ⟨s, hrun⟩ := (ih hevents).mpr ⟨hfitting, mid, hmid⟩
      -- There is no other way to spell the texts so far than the one that the replay took.
      obtain rfl := (spells_of_replay hevents hrun).rest_unique hmid
      obtain ⟨s', hstep⟩ := (hlast hrun).mpr ⟨hfits, rest, hrest⟩
      exact ⟨s', replay_concat_eq_ok.mpr ⟨s, hrun, hstep⟩⟩

/-! ### Sizes -/

theorem countP_makesNode (events : List Event) :
    events.countP Event.makesNode = begun events + events.countP Event.isVisible := by
  induction events with
  | nil => rfl
  | cons e events ih =>
    have hone : [e].countP Event.makesNode = begun [e] + [e].countP Event.isVisible := by
      cases e <;> rfl
    rw [← List.singleton_append, List.countP_append, List.countP_append, begun_append, ih, hone]
    omega

theorem countP_takesToken (events : List Event) : events.countP Event.takesToken
    = events.countP Event.isVisible + events.countP Event.isHidden := by
  induction events with
  | nil => rfl
  | cons e events ih =>
    have hone : [e].countP Event.takesToken
        = [e].countP Event.isVisible + [e].countP Event.isHidden := by
      cases e <;> rfl
    rw [← List.singleton_append, List.countP_append, List.countP_append, List.countP_append, ih,
      hone]
    omega

end Parse

namespace Builder

open Parse (Error replay begun ended)

variable {source : String} {events : List Event} {b : Builder}

/-! ### The first error -/

theorem run_append (b : Builder) (before after : List Event) :
    b.run (before ++ after) = (b.run before).run after :=
  List.foldl_append

/-- **A builder that has an error ignores every event.** -/
theorem run_of_error (h : b.error.isSome) (events : List Event) : b.run events = b := by
  induction events with
  | nil => rfl
  | cons e events ih =>
    change (b.step e).run events = b
    rw [step_of_error h, ih]

/-- **The error is that of the first event that fails.** -/
theorem exists_first_error {err : Error} (h : (b.run events).error = some err)
    (hb : b.error = none) : ∃ before e after, events = before ++ e :: after ∧
      (b.run before).error = none ∧ ((b.run before).step e).error = some err := by
  induction events using List.reverseRecOn with
  | nil => exact absurd (hb.symm.trans h) (by simp)
  | append_singleton events e ih =>
    rw [run_concat] at h
    cases herror : (b.run events).error with
    | none => exact ⟨events, e, [], rfl, herror, h⟩
    | some err' =>
      rw [step_of_error (by rw [herror]; rfl)] at h
      obtain ⟨before, e', after, rfl, hbefore, hstep⟩ := ih h
      exact ⟨before, e', after ++ [e], by simp, hbefore, hstep⟩

theorem build_of_error {err : Error} (h : ((start source).run events).error = some err) :
    build source events = .error err := by
  unfold build finish
  rw [h]

/-! ### The end -/

theorem error_run_eq_none_iff :
    ((start source).run events).error = none ↔ ∃ s, replay source events = .ok s := by
  rw [Option.eq_none_iff_forall_ne_some]
  cases hreplay : replay source events with
  | error err => simpa using ⟨err, error_run_iff.mpr hreplay⟩
  | ok s => simp [error_run_iff, hreplay]

theorem map_ofArena_build {s : Parse.State} (h : replay source events = .ok s) :
    (build source events).map Parse.ofArena = s.finish := by
  change Parse.ofEvents source events = s.finish
  rw [Parse.ofEvents_eq_replay, h]
  rfl

theorem build_eq_error_iff {s : Parse.State} (h : replay source events = .ok s) {err : Error} :
    build source events = .error err ↔ s.finish = .error err := by
  rw [← map_ofArena_build h]
  cases build source events <;> simp [Except.map]

theorem exists_build_iff {s : Parse.State} (h : replay source events = .ok s) :
    (∃ a, build source events = .ok a) ↔ ∃ p, s.finish = .ok p := by
  rw [← map_ofArena_build h]
  cases build source events <;> simp [Except.map]

/-- **Events without an error** leave some productions open, or have none, or make an arena. -/
theorem build_of_error_eq_none (h : ((start source).run events).error = none) :
    (ended events < begun events ∧
        build source events = .error (.unbalanced (begun events - ended events))) ∨
      (begun events = 0 ∧ build source events = .error .noRoot) ∨
      (0 < begun events ∧ ended events = begun events ∧ ∃ a, build source events = .ok a) := by
  obtain ⟨s, hs⟩ := error_run_eq_none_iff.mp h
  have htallies := Parse.tallies_of_replay hs
  obtain ⟨hopen, hnone, hparse⟩ := htallies.finish
  rcases (Nat.le_of_add_left_le htallies.opened_eq.le).lt_or_eq with hlt | heq
  · exact .inl ⟨hlt, (build_eq_error_iff hs).mpr (hopen hlt)⟩
  rcases Nat.eq_zero_or_pos (begun events) with hzero | hpos
  · exact .inr (.inl ⟨hzero, (build_eq_error_iff hs).mpr (hnone hzero)⟩)
  · exact .inr (.inr ⟨hpos, heq, (exists_build_iff hs).mpr (hparse hpos heq)⟩)

theorem exists_build : (∃ a, build source events = .ok a) ↔
    (∃ s, replay source events = .ok s) ∧ 0 < begun events ∧ ended events = begun events := by
  rw [← error_run_eq_none_iff]
  constructor
  · rintro ⟨a, ha⟩
    have herror := (finish_eq_ok.mp ha).1
    refine ⟨herror, ?_⟩
    rcases build_of_error_eq_none herror with ⟨-, herr⟩ | ⟨-, herr⟩ | ⟨hpos, heq, -⟩
    · rw [ha] at herr
      contradiction
    · rw [ha] at herr
      contradiction
    · exact ⟨hpos, heq⟩
  · rintro ⟨herror, hpos, heq⟩
    rcases build_of_error_eq_none herror with ⟨hlt, -⟩ | ⟨hzero, -⟩ | ⟨-, -, hbuild⟩
    · omega
    · omega
    · exact hbuild

theorem sizes_of_build {a : RootedArena} (h : build source events = .ok a) :
    a.nodes.size = begun events + events.countP Event.isVisible ∧
      a.tokens.size = events.countP Event.isVisible + events.countP Event.isHidden := by
  obtain ⟨herror, -, -, harena⟩ := finish_eq_ok.mp h
  have hrecords := records_run herror
  have hnodes := hrecords.size_nodes
  have hsize := (coherent_run source events).threaded.size_tokenParents
  have htokens := congrArg List.length hrecords.hidden_eq
  rw [List.length_map, Array.length_toList, List.length_map, ← List.countP_eq_length_filter, hsize]
    at htokens
  rw [← harena, hnodes, htokens, Parse.countP_makesNode, Parse.countP_takesToken]
  exact ⟨rfl, rfl⟩

end Builder

/-- **A builder accepts exactly its grammar, and its first error is final.** Events that report no
places describe an arena if and only if productions begin and end as one pair of brackets around
balanced ones, visible tokens stand inside that pair, and the source is made of blanks and the texts
of the tokens, in order, none of which begins with a blank, up to some rest.

A builder has an error after some events, of any kind, exactly if a replay that stops at the first
event that cannot be taken stops with this error. It is the error of the first event that fails;
from there on nothing that the builder is told changes anything, and whatever follows, the end is
this error. Events without an error end in the number of productions that have not ended, in the
absence of any production, or in an arena with a node for each production and each visible token and
a token for each one that was reported. -/
theorem builder_accepts_grammar (source : String) (events : List Event) :
    (Parse.Unplaced events → ((∃ a, Builder.build source events = .ok a) ↔
      Parse.WellBracketed events ∧ Parse.TokensInside events ∧
        ∃ rest, Text.Spells source.toList (Parse.texts events) rest)) ∧
    (∀ err, ((Builder.start source).run events).error = some err ↔
      Parse.replay source events = .error err) ∧
    (∀ err, ((Builder.start source).run events).error = some err →
      (∃ before e after, events = before ++ e :: after ∧
        ((Builder.start source).run before).error = none ∧
        (((Builder.start source).run before).step e).error = some err) ∧
      ∀ more, (Builder.start source).run (events ++ more) = (Builder.start source).run events ∧
        Builder.build source (events ++ more) = .error err) ∧
    (((Builder.start source).run events).error = none →
      (Parse.ended events < Parse.begun events ∧ Builder.build source events
          = .error (.unbalanced (Parse.begun events - Parse.ended events))) ∨
      (Parse.begun events = 0 ∧ Builder.build source events = .error .noRoot) ∨
      (0 < Parse.begun events ∧ Parse.ended events = Parse.begun events ∧
        ∃ a, Builder.build source events = .ok a ∧
          a.nodes.size = Parse.begun events + events.countP Event.isVisible ∧
          a.tokens.size = events.countP Event.isVisible + events.countP Event.isHidden)) := by
  refine ⟨fun hplace => ?_, fun err => Builder.error_run_iff, fun err h => ?_, fun h => ?_⟩
  · rw [← and_assoc, ← Parse.fitting_iff, Builder.exists_build, Parse.exists_replay hplace,
      and_right_comm]
  · refine ⟨Builder.exists_first_error h rfl, fun more => ?_⟩
    have hrun :
        (Builder.start source).run (events ++ more) = (Builder.start source).run events := by
      rw [Builder.run_append, Builder.run_of_error (by rw [h]; rfl)]
    exact ⟨hrun, Builder.build_of_error (by rw [hrun, h])⟩
  · rcases Builder.build_of_error_eq_none h with hopen | hnone | ⟨hpos, heq, a, ha⟩
    · exact .inl hopen
    · exact .inr (.inl hnone)
    · exact .inr (.inr ⟨hpos, heq, a, ha, Builder.sizes_of_build ha⟩)

/-- The theorem at a call with a comment in front of it, at a text that the source does not go on
with, and at two productions that do not end. -/
theorem builder_accepts_grammar_call :
    (Parse.WellBracketed
        [.hidden ⟨9, "/**/", none⟩, .enter 0, .enter 1, .token ⟨1, "f", none⟩, .leave,
          .token ⟨2, "(", none⟩, .token ⟨3, ")", none⟩, .leave] ∧
      Parse.TokensInside
        [.hidden ⟨9, "/**/", none⟩, .enter 0, .enter 1, .token ⟨1, "f", none⟩, .leave,
          .token ⟨2, "(", none⟩, .token ⟨3, ")", none⟩, .leave] ∧
      ∃ rest, Text.Spells "/**/f ()".toList ["/**/", "f", "(", ")"] rest) ∧
    (∀ more, Builder.build " f" ([.enter 0, .token ⟨1, "g", none⟩] ++ more)
      = .error (.tokenMismatch "g" 1)) ∧
    Builder.build "f" [.enter 0, .enter 1, .token ⟨1, "f", none⟩] = .error (.unbalanced 2) := by
  refine ⟨((builder_accepts_grammar "/**/f ()" _).1 (by decide)).mp ?_, fun more => ?_, ?_⟩
  · obtain ⟨hlt, -⟩ | ⟨hzero, -⟩ | ⟨-, -, a, ha, -⟩ := (builder_accepts_grammar "/**/f ()"
      [.hidden ⟨9, "/**/", none⟩, .enter 0, .enter 1, .token ⟨1, "f", none⟩, .leave,
        .token ⟨2, "(", none⟩, .token ⟨3, ")", none⟩, .leave]).2.2.2 (by decide +kernel)
    · exact absurd hlt (by decide)
    · contradiction
    · exact ⟨a, ha⟩
  · exact (((builder_accepts_grammar " f" _).2.2.1 _ (by decide +kernel)).2 more).2
  · obtain ⟨-, hopen⟩ | ⟨hzero, -⟩ | ⟨-, heq, -⟩ := (builder_accepts_grammar "f"
      [.enter 0, .enter 1, .token ⟨1, "f", none⟩]).2.2.2 (by decide +kernel)
    · exact hopen
    · contradiction
    · contradiction

end Highlighting
