import Highlighting.Proofs.Projection
import Highlighting.Proofs.Parses

/-!
# The stream over the source

The tokens of a parse are meant to be the source without its blanks, in order. Two routines see to
it. A token that is reported by its text is looked for behind the blanks at the cursor; a token that
is reported with a place is only checked against the cursor and the length of the source, and its
text is taken on trust. Both move the cursor, and events may mix them at will.

What holds of the stream therefore depends on how each token was reported, and on where the token
before it ended. `Parse.Laid` runs along the reported and the taken tokens together and keeps
exactly these two. Everything else is read off it: tokens are in order and inside the source in any
case, a token that was found by its text has that text in the source and nothing but blanks before
it, and if all tokens were found by their texts then no character was passed over.

## Main definitions

* `Event.lexeme?` of `Highlighting.Proofs.Replay`: what an event reports of a token
* `Token.FoundIn`: the source has the text of a token at its span, and blanks before it
* `Parse.endBefore`: where the tokens before some position of the stream end
* `Parse.Laid`: tokens taken one after the other, as they were reported

## Main results

* `Parse.laid_of_ofEvents`: the stream is laid along the source as the events report
* `Parse.Laid.foundIn`: what holds of a token that was found by its text
* `Parse.Laid.exists_covers`: tokens that were all found by their texts leave out nothing but blanks
* `stream_lies_in_source`: all of this for every parse that events describe
-/

namespace Highlighting

/-- The token is the next thing in the source behind some offset: its text is what the source has at
its span, it begins with a character that is not blank, and before it there are only blanks. -/
structure Token.FoundIn (t : Token) (source : String) (offset : Nat) : Prop where
  /-- The text is that of the source. -/
  text_eq : t.text.toList = source.toList.extract t.span.start (t.span.stop + 1)
  /-- The first character is not blank. -/
  solid : Text.Solid t.text
  /-- The characters from the offset to the token are. -/
  gap_blank : Text.Blank (source.toList.extract offset t.span.start)

namespace Parse

/-- The number of characters up to the end of the last token, and some other number if there is no
token. -/
def endOf (cursor : Nat) (xs : List StreamToken) : Nat :=
  (xs.getLast?.map (·.token.span.stop + 1)).getD cursor

@[simp] theorem endOf_nil (cursor : Nat) : endOf cursor [] = cursor := rfl

@[simp] theorem endOf_cons (cursor : Nat) (x : StreamToken) (xs : List StreamToken) :
    endOf cursor (x :: xs) = endOf (x.token.span.stop + 1) xs := by
  cases h : xs.getLast? <;> simp [endOf, List.getLast?_cons, h]

/-- The number of characters of the source up to the end of the tokens before a position of the
stream. -/
def endBefore (p : Parse) (n : Nat) : Nat := endOf 0 (p.stream.take n)

/-- The tokens are taken behind the cursor one after the other, as they are reported. -/
inductive Laid (source : String) : Nat → List Lexeme → List StreamToken → Prop
  | nil (cursor : Nat) : Laid source cursor [] []
  | cons {cursor : Nat} {l : Lexeme} {x : StreamToken} {ls : List Lexeme} {xs : List StreamToken}
      (reports : l.Reports x.token) (cursor_le : cursor ≤ x.token.span.start)
      (found : l.place = none → x.token.FoundIn source cursor)
      (behind : Laid source (x.token.span.stop + 1) ls xs) : Laid source cursor (l :: ls) (x :: xs)

/-! ### What a replay lays -/

namespace State

variable {source : String} {s s' : State} {e : Event} {t : Token}

/-- What is left of the source is the source from the cursor on. -/
theorem Finds.foundIn (hs : s.Reads source) (h : s.Finds t) : t.FoundIn source s.cursor := by
  obtain ⟨gap, rest, hgap, hsolid, hsplit, hstart, hstop⟩ := h
  rw [hs.rest_eq] at hsplit
  refine ⟨?_, hsolid, ?_⟩
  · have hlength : t.span.stop + 1 - t.span.start = t.text.toList.length := by
      rw [String.length_toList]
      omega
    rw [List.extract_eq_take_drop, hlength, hstart, ← List.drop_drop, hsplit, List.drop_left,
      List.take_left]
  · have hlength : t.span.start - s.cursor = gap.length := by omega
    rwa [List.extract_eq_take_drop, hlength, hsplit, List.take_left]

/-- **A replay lays the tokens that its events report**, from its cursor on. -/
theorem laid_of_run (hs : s.Reads source) {events : List Event}
    (h : events.foldlM step s = .ok s') :
    ∃ new, s'.stream = new.reverse ++ s.stream ∧
      Laid source s.cursor (events.filterMap Event.lexeme?) new := by
  induction events generalizing s with
  | nil =>
    obtain rfl := Except.ok.inj h
    exact ⟨[], rfl, .nil _⟩
  | cons e events ih =>
    obtain ⟨s₁, hstep, hrun⟩ := run_cons.mp h
    have hstep := step_of_step_eq_ok hs hstep
    obtain ⟨new, hnew, hlaid⟩ := ih (hstep.reads hs) hrun
    rcases hstep.stream_eq with ⟨he, hstream, hcursor⟩ | ⟨l, t, parent, he, ht, hstream, hcursor⟩
    · refine ⟨new, by rw [hnew, hstream], ?_⟩
      rwa [List.filterMap_cons_none he, ← hcursor]
    · rw [hcursor] at hlaid
      refine ⟨⟨t, parent⟩ :: new, by rw [hnew, hstream]; simp, ?_⟩
      rw [List.filterMap_cons_some he]
      exact .cons ht.reports ht.cursor_le_start (fun hl => (ht.finds hl).foundIn hs) hlaid

end State

/-! ### What is known of tokens that are laid -/

variable {source : String} {events : List Event} {p : Parse}

/-- **The stream is laid along the source as the events report.** -/
theorem laid_of_ofEvents (h : ofEvents source events = .ok p) :
    Laid source 0 (events.filterMap Event.lexeme?) p.stream := by
  obtain ⟨s, hrun, -, -, hstream⟩ := exists_run_of_ofEvents h
  obtain ⟨new, hnew, hlaid⟩ := State.laid_of_run (State.sound_initial source).reads hrun
  have hnew : p.stream = new := by
    rw [hstream, hnew]
    simp [State.initial]
  rwa [hnew]

namespace Laid

variable {cursor : Nat} {ls : List Lexeme} {xs : List StreamToken}

theorem reports (h : Laid source cursor ls xs) :
    List.Forall₂ (fun l x => l.Reports x.token) ls xs := by
  induction h with
  | nil cursor => exact .nil
  | cons hreports _ _ _ ih => exact .cons hreports ih

/-- **A token that was found by its text** is the next thing in the source behind the token before
it. -/
theorem foundIn (h : Laid source cursor ls xs) {i : Nat} {l : Lexeme} {x : StreamToken}
    (hl : ls[i]? = some l) (hx : xs[i]? = some x) (hplace : l.place = none) :
    x.token.FoundIn source (endOf cursor (xs.take i)) := by
  induction h generalizing i with
  | nil cursor => contradiction
  | cons _ _ hfound _ ih =>
    cases i with
    | zero =>
      obtain rfl := Option.some.inj hl
      obtain rfl := Option.some.inj hx
      exact hfound hplace
    | succ i =>
      rw [List.take_succ_cons, endOf_cons]
      exact ih hl hx

/-- **Tokens that were all found by their texts leave out nothing but blanks**, up to the end of the
last one. -/
theorem exists_covers (h : Laid source cursor ls xs) (hplace : ∀ l ∈ ls, l.place = none) {n : Nat}
    {c : Char} (hc : source.toList[n]? = some c) (hsolid : Text.isBlank c = false)
    (hle : cursor ≤ n) (hlt : n < endOf cursor xs) : ∃ x ∈ xs, x.token.span.Covers n := by
  induction h with
  | nil cursor =>
    rw [endOf_nil] at hlt
    omega
  | @cons cursor l x ls xs _ _ hfound _ ih =>
    rw [List.forall_mem_cons] at hplace
    rw [endOf_cons] at hlt
    rcases Nat.lt_or_ge n x.token.span.start with hbefore | hstart
    · -- Between the cursor and the token there are only blanks.
      have hmem : c ∈ source.toList.extract cursor x.token.span.start := by
        refine List.mem_of_getElem? (i := n - cursor) ?_
        rw [List.extract_eq_take_drop, List.getElem?_take_of_lt (by omega), List.getElem?_drop,
          Nat.add_sub_cancel' hle, hc]
      rw [(hfound hplace.1).gap_blank c hmem] at hsolid
      contradiction
    rcases Nat.lt_or_ge x.token.span.stop n with hbehind | hstop
    · obtain ⟨y, hy, hcovers⟩ := ih hplace.2 hbehind hlt
      exact ⟨y, List.mem_cons_of_mem _ hy, hcovers⟩
    · exact ⟨x, List.mem_cons_self, hstart, hstop⟩

end Laid

/-- No two tokens of the stream cover the same offset. -/
theorem Sound.index_eq_of_covers (h : p.Sound source) {i j n : Nat} {x y : StreamToken}
    (hx : p.stream[i]? = some x) (hy : p.stream[j]? = some y) (hxn : x.token.span.Covers n)
    (hyn : y.token.span.Covers n) : i = j := by
  obtain ⟨hi, rfl⟩ := List.getElem?_eq_some_iff.mp hx
  obtain ⟨hj, rfl⟩ := List.getElem?_eq_some_iff.mp hy
  have hordered := List.pairwise_iff_getElem.mp h.ordered
  rcases Nat.lt_trichotomy i j with hij | rfl | hji
  · exact absurd hyn (Span.apart_of_lt (hordered i j hi hj hij) n hxn)
  · rfl
  · exact absurd hxn (Span.apart_of_lt (hordered j i hj hi hji) n hyn)

end Parse

/-- **The stream lies along the source.** Token by token it is what the events report. However the
tokens are reported, each of them covers some characters of the source and begins behind the end of
the one before it. A token that is reported by its text alone is the next thing in the source: its
text is what stands there, from a character on that is not blank, and only blanks stand between it
and the token before it. So if all tokens are reported by their texts, then up to the end of the
last token each character that is not blank belongs to exactly one of them. -/
theorem stream_lies_in_source {source : String} {events : List Event} {p : Parse}
    (h : Parse.ofEvents source events = .ok p) :
    let lexemes := events.filterMap Event.lexeme?
    List.Forall₂ (fun l (x : StreamToken) => l.Reports x.token) lexemes p.stream ∧
      (∀ x ∈ p.stream, x.token.span.start ≤ x.token.span.stop ∧
        x.token.span.stop < source.length) ∧
      (p.stream.Pairwise fun x y => x.token.span.stop < y.token.span.start) ∧
      (∀ (i : Nat) l x, lexemes[i]? = some l → p.stream[i]? = some x → l.place = none →
        x.token.FoundIn source (p.endBefore i)) ∧
      ((∀ l ∈ lexemes, l.place = none) → ∀ (n : Nat) c, source.toList[n]? = some c →
        Text.isBlank c = false → n < p.endBefore p.stream.length →
        ∃! i : Nat, ∃ x, p.stream[i]? = some x ∧ x.token.span.Covers n) := by
  intro lexemes
  have hsound := Parse.sound_of_ofEvents h
  have hlaid := Parse.laid_of_ofEvents h
  refine ⟨hlaid.reports, hsound.covers, hsound.ordered,
    fun i l x hl hx hplace => hlaid.foundIn hl hx hplace, ?_⟩
  intro hplace n c hc hsolid hlt
  rw [Parse.endBefore, List.take_length] at hlt
  obtain ⟨x, hx, hcovers⟩ := hlaid.exists_covers hplace hc hsolid (Nat.zero_le n) hlt
  obtain ⟨i, hi⟩ := List.getElem?_of_mem hx
  refine ⟨i, ⟨x, hi, hcovers⟩, ?_⟩
  rintro j ⟨y, hj, hcovers'⟩
  exact hsound.index_eq_of_covers hj hi hcovers' hcovers

/-- The theorem at a call with a comment in it and a wide blank behind that. The comment is a token
of the stream, and only the two blanks around it belong to none. -/
theorem stream_lies_in_source_call :
    ∃ p, Parse.ofEvents "f /*x*/\u3000y "
        [.enter 1, .token ⟨7, "f", none⟩, .hidden ⟨8, "/*x*/", none⟩, .token ⟨7, "y", none⟩,
          .leave] = .ok p ∧
      p.stream.map (·.token.span) = [⟨0, 0⟩, ⟨2, 6⟩, ⟨8, 8⟩] ∧
      Token.FoundIn ⟨7, ⟨8, 8⟩, "y"⟩ "f /*x*/\u3000y " 7 ∧
      ∃! i : Nat, ∃ x, p.stream[i]? = some x ∧ x.token.span.Covers 5 := by
  obtain ⟨p, h⟩ : ∃ p, Parse.ofEvents "f /*x*/\u3000y "
      [.enter 1, .token ⟨7, "f", none⟩, .hidden ⟨8, "/*x*/", none⟩, .token ⟨7, "y", none⟩,
        .leave] = .ok p := ⟨_, (Parse.ofEvents_eq_replay _ _).trans rfl⟩
  have hstream : p.stream = [⟨⟨7, ⟨0, 0⟩, "f"⟩, some 1⟩, ⟨⟨8, ⟨2, 6⟩, "/*x*/"⟩, none⟩,
      ⟨⟨7, ⟨8, 8⟩, "y"⟩, some 1⟩] := by
    rw [Parse.ofEvents_eq_replay] at h
    obtain rfl := Except.ok.inj h
    rfl
  have hend : p.endBefore 2 = 7 := by
    rw [Parse.endBefore, hstream]
    rfl
  obtain ⟨-, -, -, hfound, hcovers⟩ := stream_lies_in_source h
  refine ⟨p, h, by rw [hstream]; rfl, hend ▸ hfound 2 _ _ rfl (by rw [hstream]; rfl) rfl, ?_⟩
  refine hcovers (by decide) 5 '*' rfl rfl ?_
  rw [Parse.endBefore, hstream]
  decide

end Highlighting
