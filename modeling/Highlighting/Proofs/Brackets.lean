import Mathlib.Combinatorics.Enumerative.DyckWord
import Highlighting.Proofs.Replay

/-!
# Productions as brackets

Where productions begin and end, events are a word of brackets, and a tree needs that word to be one
pair of brackets with balanced brackets inside. That is a condition on the word as a whole. A replay
has to decide about one event at a time, and all it can go by is how many productions have begun and
how many have ended before it: a token or an end needs an open production, and a production other
than the outermost one needs one, too.

`Parse.fitting_iff` says that the two agree. Balanced brackets are defined by counting prefixes, and
a pair of brackets around them by the same counts being strict inside, so all that is to be done is
to find each prefix of the word as the brackets of some prefix of the events.

## Main definitions

* `Parse.brackets`, `Parse.begun`, `Parse.ended`: productions as brackets, and their numbers
* `Parse.WellBracketed`, `Parse.TokensInside`: one pair of brackets, with the visible tokens inside
* `Event.FitsBehind`, `Parse.Fitting`: events that can follow the events before them

## Main results

* `Parse.Fitting.count_take`: the counts before each bracket
* `Parse.fitting_iff`: events that fit are brackets with the tokens inside
-/

namespace Highlighting

/-- The bracket that an event is, if it is one. -/
def Event.bracket? : Event → Option DyckStep
  | .enter _ => some .U
  | .leave => some .D
  | .token _ | .hidden _ => none

theorem Event.bracket?_eq_some_U {e : Event} : e.bracket? = some .U ↔ ∃ r, e = .enter r := by
  cases e <;> simp [bracket?]

theorem Event.bracket?_eq_some_D {e : Event} : e.bracket? = some .D ↔ e = .leave := by
  cases e <;> simp [bracket?]

namespace Parse

/-! ### Brackets -/

/-- The productions that begin and end, as brackets. -/
def brackets (events : List Event) : List DyckStep := events.filterMap Event.bracket?

/-- The number of productions that begin. -/
def begun (events : List Event) : Nat := (brackets events).count .U

/-- The number of productions that end. -/
def ended (events : List Event) : Nat := (brackets events).count .D

/-- Productions begin and end like one pair of brackets with balanced brackets inside. -/
def WellBracketed (events : List Event) : Prop :=
  ∃ w : DyckWord, brackets events = w.nest.toList

/-- Visible tokens stand inside the outermost production: it has begun before them and ends behind
them. -/
def TokensInside (events : List Event) : Prop :=
  ∀ before l after, events = before ++ .token l :: after →
    (∃ r, .enter r ∈ before) ∧ .leave ∈ after

variable {events before after : List Event} {e : Event}

@[simp] theorem brackets_append : brackets (before ++ after) = brackets before ++ brackets after :=
  List.filterMap_append

@[simp] theorem begun_append : begun (before ++ after) = begun before + begun after := by
  simp [begun]

@[simp] theorem ended_append : ended (before ++ after) = ended before + ended after := by
  simp [ended]

theorem begun_pos_iff : 0 < begun events ↔ ∃ r, .enter r ∈ events := by
  rw [begun, List.count_pos_iff, brackets, List.mem_filterMap]
  constructor
  · rintro ⟨e, he, hb⟩
    obtain ⟨r, rfl⟩ := Event.bracket?_eq_some_U.mp hb
    exact ⟨r, he⟩
  · rintro ⟨r, hr⟩
    exact ⟨_, hr, rfl⟩

theorem ended_pos_iff : 0 < ended events ↔ .leave ∈ events := by
  rw [ended, List.count_pos_iff, brackets, List.mem_filterMap]
  constructor
  · rintro ⟨e, he, hb⟩
    obtain rfl := Event.bracket?_eq_some_D.mp hb
    exact he
  · intro h
    exact ⟨_, h, rfl⟩

theorem length_brackets : (brackets events).length = begun events + ended events := by
  rw [begun, ended]
  induction brackets events with
  | nil => rfl
  | cons b bs ih => cases b <;> simp <;> omega

/-! ### Events that fit -/

end Parse

open Parse in
/-- The event can follow the events before it, as far as productions go. -/
def Event.FitsBehind (before : List Event) : Event → Prop
  | .enter _ => begun before = ended before → begun before = 0
  | .token _ | .leave => ended before < begun before
  | .hidden _ => True

namespace Parse

variable {events before after : List Event} {e : Event}

/-- Every event can follow the events before it. -/
def Fitting (events : List Event) : Prop :=
  ∀ before e after, events = before ++ e :: after → e.FitsBehind before

theorem fitting_nil : Fitting [] := by
  intro before e after h
  simp at h

theorem fitting_concat : Fitting (events ++ [e]) ↔ Fitting events ∧ e.FitsBehind events := by
  constructor
  · intro h
    refine ⟨fun before e' after hevents => h before e' (after ++ [e]) ?_, h events e [] rfl⟩
    rw [hevents, List.append_assoc, List.cons_append]
  · rintro ⟨hevents, he⟩ before e' after h
    rcases List.eq_nil_or_concat after with rfl | ⟨after, last, rfl⟩
    · obtain ⟨rfl, hlast⟩ := List.append_inj' h rfl
      obtain rfl := List.singleton_inj.mp hlast
      exact he
    · rw [List.concat_eq_append, ← List.cons_append, ← List.append_assoc] at h
      exact hevents before e' after (List.append_inj' h rfl).1

theorem Fitting.ended_le (h : Fitting events) : ended events ≤ begun events := by
  induction events using List.reverseRecOn with
  | nil => rfl
  | append_singleton events e ih =>
    obtain ⟨hevents, he⟩ := fitting_concat.mp h
    have hle := ih hevents
    rw [begun_append, ended_append]
    cases e with
    | enter r => exact Nat.le_succ_of_le hle
    | token l => exact hle
    | hidden l => exact hle
    | leave => exact he

/-- A bracket can be found among the events. -/
theorem exists_split {i : Nat} (hi : i < (brackets events).length) :
    ∃ before e after, events = before ++ e :: after ∧
      brackets before = (brackets events).take i ∧ e.bracket? = some (brackets events)[i] := by
  have hsplit := (brackets events).take_append_drop i
  rw [List.drop_eq_getElem_cons hi] at hsplit
  obtain ⟨before, behind, hevents, hbefore, hbehind⟩ := List.filterMap_eq_append_iff.mp hsplit.symm
  obtain ⟨skipped, e, after, hsplit', hskipped, he, -⟩ := List.filterMap_eq_cons_iff.mp hbehind
  refine ⟨before ++ skipped, e, after, by rw [hevents, hsplit', List.append_assoc], ?_, he⟩
  have hnone : brackets skipped = [] := List.filterMap_eq_nil_iff.mpr hskipped
  rw [brackets_append, hnone, List.append_nil]
  exact hbefore

/-- Inside of one pair of brackets around balanced ones more have begun than ended. -/
theorem ended_lt_begun {w : DyckWord} (hw : brackets (before ++ after) = w.nest.toList)
    (hbefore : 0 < (brackets before).length) (hafter : 0 < (brackets after).length) :
    ended before < begun before := by
  have hlt : (brackets before).length < w.nest.toList.length := by
    rw [← hw, brackets_append, List.length_append]
    omega
  have htake : w.nest.toList.take (brackets before).length = brackets before := by
    rw [← hw, brackets_append, List.take_left]
  have hnested := DyckWord.IsNested.nest.2 hbefore hlt
  rwa [htake] at hnested

theorem WellBracketed.counts (h : WellBracketed events) :
    0 < begun events ∧ ended events = begun events := by
  obtain ⟨w, hw⟩ := h
  rw [begun, ended, hw]
  exact ⟨by simp [DyckWord.nest], w.nest.count_U_eq_count_D.symm⟩

theorem fitting_of_wellBracketed (h : WellBracketed events) (htokens : TokensInside events) :
    Fitting events := by
  obtain ⟨w, hw⟩ := h
  intro before e after hevents
  have hinside := ended_lt_begun (hevents ▸ hw)
  have hlength := @length_brackets before
  cases e with
  | enter r =>
    intro hcount
    by_contra hne
    have := hinside (by omega) (by simp [brackets, Event.bracket?])
    omega
  | token l =>
    obtain ⟨hbegun, hended⟩ := htokens before l after hevents
    have hbegun := begun_pos_iff.mpr hbegun
    refine hinside (by omega) ?_
    have hended := ended_pos_iff.mpr (List.mem_cons_of_mem (.token l) hended)
    have := @length_brackets (.token l :: after)
    omega
  | hidden l => trivial
  | leave =>
    refine hinside ?_ (by simp [brackets, Event.bracket?])
    -- Otherwise the word would begin with a closing bracket.
    rw [List.length_pos_iff]
    intro hnil
    rw [hevents, brackets_append, hnil] at hw
    simp [brackets, Event.bracket?, DyckWord.nest] at hw

theorem Fitting.of_append (h : Fitting (before ++ after)) : Fitting before := by
  rintro before' e after' rfl
  exact h before' e (after' ++ after) (by simp)

/-- Before every bracket no more has ended than begun, and less if something has begun. -/
theorem Fitting.count_take (h : Fitting events) {i : Nat} (hi : i < (brackets events).length) :
    ((brackets events).take i).count .D ≤ ((brackets events).take i).count .U ∧
      (0 < i → ((brackets events).take i).count .D < ((brackets events).take i).count .U) := by
  obtain ⟨before, e, after, hevents, hbefore, he⟩ := exists_split hi
  have hle : ended before ≤ begun before := (hevents ▸ h).of_append.ended_le
  have hfits := h before e after hevents
  have hlength := @length_brackets before
  rw [hbefore, List.length_take_of_le hi.le] at hlength
  rw [← hbefore]
  refine ⟨hle, fun hpos => ?_⟩
  change ended before < begun before
  cases e with
  | enter r =>
    have hfits : begun before = ended before → begun before = 0 := hfits
    omega
  | token l => contradiction
  | hidden l => contradiction
  | leave => exact hfits

theorem wellBracketed_of_fitting (h : Fitting events) (hbegun : 0 < begun events)
    (hended : ended events = begun events) : WellBracketed events := by
  let w : DyckWord :=
    { toList := brackets events
      count_U_eq_count_D := hended.symm
      count_D_le_count_U := fun i => by
        rcases Nat.lt_or_ge i (brackets events).length with hi | hi
        · exact (h.count_take hi).1
        · rw [List.take_of_length_le hi]
          exact hended.le }
  have hne : w.toList ≠ [] := List.ne_nil_of_mem (List.count_pos_iff.mp hbegun)
  have hnested : w.IsNested :=
    ⟨DyckWord.toList_ne_nil.mp hne, fun i hpos hi => (h.count_take hi).2 hpos⟩
  exact ⟨w.denest hnested, by rw [w.nest_denest hnested]⟩

theorem tokensInside_of_fitting (h : Fitting events) (hended : ended events = begun events) :
    TokensInside events := by
  rintro before l after rfl
  have hfits : ended before < begun before := h before _ after rfl
  rw [← List.singleton_append, begun_append, begun_append, ended_append, ended_append] at hended
  have htoken : begun [.token l] = 0 ∧ ended [.token l] = 0 := ⟨rfl, rfl⟩
  exact ⟨begun_pos_iff.mp (by omega), ended_pos_iff.mp (by omega)⟩

/-- **Events that fit and end all that they begin** are one pair of brackets around balanced ones,
with the tokens inside. -/
theorem fitting_iff : (Fitting events ∧ 0 < begun events ∧ ended events = begun events) ↔
    WellBracketed events ∧ TokensInside events := by
  constructor
  · rintro ⟨h, hbegun, hended⟩
    exact ⟨wellBracketed_of_fitting h hbegun hended, tokensInside_of_fitting h hended⟩
  · rintro ⟨h, htokens⟩
    exact ⟨fitting_of_wellBracketed h htokens, h.counts⟩

end Parse

end Highlighting
