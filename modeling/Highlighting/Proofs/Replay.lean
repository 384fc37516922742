import Highlighting.Proofs.ArenaLinks
import Highlighting.Proofs.Cue
import Highlighting.Proofs.Spelling

/-!
# What a replay builds

A builder writes an arena, and the tree is read off the arena when it is complete. Until then there
is no tree to speak of. A replay takes the same events and keeps the tree instead, in pieces: the
productions that have not yet ended, each with its finished children. It stops at the first event
that does not fit, so it has no error to remember. That the two agree is shown in
`Highlighting.Proofs.ArenaTrees`; here the replay is looked at on its own.

This module says once what a step can do (`Parse.State.Step`) and derives everything else from that:
what the pieces are in every reachable state (`Parse.State.Sound`), and how the cues of the pieces
grow with the events (`Parse.State.Step.cues_eq`).

Taking a token is the only part of a step that looks at the source. It is described once, by
`Parse.State.Takes`, for tokens that are found by their text and for tokens that come with a span:
in both cases the span is not empty, begins at the cursor or behind it, and ends inside the source.
Of a token that is found by its text, more is known: `Parse.State.Finds`.

## Main definitions

* `Parse.State`, `Parse.State.step`, `Parse.replay`: the state of a replay, one step and many
* `Lexeme.Reports`: what a parser reports of a token is true of it
* `Parse.script`: the cues that a list of events calls for
* `Parse.State.Finds`, `Parse.State.Takes`, `Parse.State.Step`: what finding a token, taking a token
  and a step do to the state
* `Parse.State.Sound`: what holds of every state of a replay

## Main results

* `Parse.State.sound_of_run`: every state of a replay is sound
* `Parse.State.performs_of_run`: the cues of the pieces grow as the events call for
-/

namespace Highlighting

/-- The token is the one that a parser reports: it has the kind and the text that are reported, and
the place too if one is. -/
structure Lexeme.Reports (l : Lexeme) (t : Token) : Prop where
  /-- The kinds agree. -/
  kind_eq : t.kind = l.kind
  /-- The texts agree. -/
  text_eq : t.text = l.text
  /-- A reported place is where the token stands. -/
  place_eq : ∀ span, l.place = some span → t.span = span

/-- What an event reports of a token, if it takes one. -/
def Event.lexeme? : Event → Option Lexeme
  | .token l | .hidden l => some l
  | .enter _ | .leave => none

namespace Parse

/-! ### The state of a replay -/

/-- A production that has begun and not yet ended. -/
structure Opened where
  /-- The number of its node. -/
  id : Nat
  /-- What it is a production of. -/
  rule : RuleId
  /-- Its children so far, latest first. -/
  children : List Tree

/-- The state of a replay. -/
structure State where
  /-- The number of characters of the source. -/
  length : Nat
  /-- The number of characters up to the end of the last token. -/
  cursor : Nat
  /-- The characters from there on. -/
  rest : List Char
  /-- The number of the next node. -/
  next : Nat
  /-- The productions that have not yet ended, innermost first. -/
  opened : List Opened
  /-- The whole tree, once the outermost production has ended. -/
  root : Option Tree
  /-- The tokens so far, latest first. -/
  stream : List StreamToken

namespace State

/-- A replay begins at the start of the source, with nothing open. -/
def initial (source : String) : State :=
  { length := source.length
    cursor := 0
    rest := source.toList
    next := 0
    opened := []
    root := none
    stream := [] }

/-- Finds the place of a token that is given by its text: behind the blanks at the cursor. -/
def locate (s : State) (kind : TokenKind) (text : String) : Except Error (Token × State) :=
  let start := s.cursor + (s.rest.takeWhile Text.isBlank).length
  if text.isEmpty then
    .error (.emptyToken start)
  else
    match text.toList.isPrefixOf? (s.rest.dropWhile Text.isBlank) with
    | none => .error (.tokenMismatch text start)
    | some rest =>
      let stop := start + text.length - 1
      .ok (⟨kind, ⟨start, stop⟩, text⟩, { s with cursor := stop + 1, rest })

/-- Checks the place of a token that is given by its span. Its text is taken as it comes. -/
def check (s : State) (kind : TokenKind) (text : String) (span : Span) :
    Except Error (Token × State) :=
  if span.length = 0 then
    .error (.emptyToken span.start)
  else if span.start < s.cursor then
    .error (.outOfOrder span.start s.cursor)
  else if span.stop ≥ s.length then
    .error (.outOfBounds span s.length)
  else
    let cursor := span.stop + 1
    .ok (⟨kind, span, text⟩, { s with cursor, rest := s.rest.drop (cursor - s.cursor) })

/-- The token that a parser reports, and the state with the cursor behind it. -/
def take (s : State) (l : Lexeme) : Except Error (Token × State) :=
  match l.place with
  | none => s.locate l.kind l.text
  | some span => s.check l.kind l.text span

/-- One step of a replay. -/
def step (s : State) : Event → Except Error State
  | .enter rule =>
    if s.opened.isEmpty && s.root.isSome then
      .error .multipleRoots
    else
      .ok { s with next := s.next + 1, opened := ⟨s.next, rule, []⟩ :: s.opened }
  | .token lexeme => do
    let (token, s) ← s.take lexeme
    match s.opened with
    | [] => .error (.tokenOutsideNode token.text)
    | top :: below =>
      .ok { s with
        next := s.next + 1
        opened := { top with children := .leaf s.next token :: top.children } :: below
        stream := ⟨token, some top.rule⟩ :: s.stream }
  | .hidden lexeme => do
    let (token, s) ← s.take lexeme
    .ok { s with stream := ⟨token, none⟩ :: s.stream }
  | .leave =>
    match s.opened with
    | [] => .error .leaveWithoutEnter
    | top :: below =>
      let tree := Tree.branch top.id top.rule top.children.reverse
      match below with
      | [] => .ok { s with opened := [], root := some tree }
      | around :: below =>
        .ok { s with
          opened := { around with children := tree :: around.children } :: below }

/-- What a replay has built when the events are over. -/
def finish (s : State) : Except Error Parse :=
  if !s.opened.isEmpty then
    .error (.unbalanced s.opened.length)
  else
    match s.root with
    | none => .error .noRoot
    | some root => .ok ⟨root, s.stream.reverse⟩

end State

/-- The state of a replay of some events from the start of a source. -/
def replay (source : String) (events : List Event) : Except Error State :=
  events.foldlM State.step (State.initial source)

/-! ### Cues -/

/-- The cues that events call for when the productions of `opened` (innermost first) have not yet
ended and the next node has the number `next`. A production is left under the number and the rule
with which it began; a hidden token gives no cue. -/
def script : List (Nat × RuleId) → Nat → List Event → List (Cue Lexeme)
  | _, _, [] => []
  | opened, next, .enter r :: events =>
    .enter next r :: script ((next, r) :: opened) (next + 1) events
  | opened, next, .token l :: events => .visit next l :: script opened (next + 1) events
  | opened, next, .hidden _ :: events => script opened next events
  | (n, r) :: opened, next, .leave :: events => .leave n r :: script opened next events
  | [], next, .leave :: events => script [] next events

/-- The cues of a tree are those that are called for, token by token as reported. -/
def Performs : List (Cue Token) → List (Cue Lexeme) → Prop :=
  List.Forall₂ (Cue.Matches fun t l => l.Reports t)

theorem Performs.map_eq {γ : Type} {f : Cue Token → γ} {g : Cue Lexeme → γ}
    (hfg : ∀ {x y}, Cue.Matches (fun t l => Lexeme.Reports l t) x y → f x = g y)
    {xs : List (Cue Token)} {ys : List (Cue Lexeme)} (h : Performs xs ys) :
    xs.map f = ys.map g := by
  induction h with
  | nil => rfl
  | cons hxy _ ih => rw [List.map_cons, List.map_cons, hfg hxy, ih]

/-- Nodes are numbered in the order in which the events make them. -/
theorem filterMap_arrived?_script (opened : List (Nat × RuleId)) (next : Nat)
    (events : List Event) :
    (script opened next events).filterMap Cue.arrived?
      = List.range' next (events.countP Event.makesNode) := by
  fun_induction script opened next events with
  | case1 => rfl
  | case2 opened next r events ih =>
    simp [List.countP_cons, Cue.arrived?, Event.makesNode, ih, List.range'_succ]
  | case3 opened next l events ih =>
    simp [List.countP_cons, Cue.arrived?, Event.makesNode, ih, List.range'_succ]
  | case4 opened next l events ih => simpa [List.countP_cons, Event.makesNode] using ih
  | case5 n r opened next events ih =>
    simpa [List.filterMap_cons, List.countP_cons, Cue.arrived?, Event.makesNode] using ih
  | case6 next events ih => simpa [List.countP_cons, Event.makesNode] using ih

/-! ### Productions that have not yet ended -/

namespace Opened

/-- The tree of a production that ends. -/
def close (o : Opened) : Tree := Tree.branch o.id o.rule o.children.reverse

/-- The production with another child. -/
def add (o : Opened) (t : Tree) : Opened := { o with children := t :: o.children }

/-- The cues of what there is of a production. -/
def cues (o : Opened) : List (Cue Token) :=
  .enter o.id o.rule :: o.children.reverse.flatMap Tree.cues

/-- The tokens of what there is of a production. -/
def visible (o : Opened) : List StreamToken :=
  o.children.reverse.flatMap (·.visible (some o.rule))

theorem cues_add (o : Opened) (t : Tree) : (o.add t).cues = o.cues ++ t.cues := by
  simp [add, cues]

theorem visible_add (o : Opened) (t : Tree) :
    (o.add t).visible = o.visible ++ t.visible (some o.rule) := by
  simp [add, visible]

theorem cues_close (o : Opened) : o.close.cues = o.cues ++ [.leave o.id o.rule] := by
  rw [close, Tree.branch, Tree.cues_node, cues]

theorem visible_close (o : Opened) (parent : Option RuleId) :
    o.close.visible parent = o.visible := by
  rw [close, Tree.branch, Tree.visible_node, visible]

theorem spanned_close {o : Opened} (h : ∀ c ∈ o.children, c.Spanned) : o.close.Spanned :=
  Tree.spanned_branch (by simpa using h)

end Opened

namespace State

/-! ### Taking a token -/

/-- The replay has read the source up to the cursor. -/
structure Reads (s : State) (source : String) : Prop where
  /-- The length is that of the source. -/
  length_eq : s.length = source.length
  /-- The cursor has not passed the end. -/
  cursor_le : s.cursor ≤ s.length
  /-- What is left begins at the cursor. -/
  rest_eq : s.rest = source.toList.drop s.cursor

/-- `t` is the token that is found by its text: behind the blanks at the cursor, where the source
goes on with that text. -/
def Finds (s : State) (t : Token) : Prop :=
  ∃ gap rest, Text.Blank gap ∧ Text.Solid t.text ∧ s.rest = gap ++ (t.text.toList ++ rest) ∧
    t.span.start = s.cursor + gap.length ∧ t.span.stop + 1 = t.span.start + t.text.length

/-- `t` is the token that is taken where `l` is reported. -/
structure Takes (s : State) (l : Lexeme) (t : Token) : Prop where
  /-- The token is the one reported. -/
  reports : l.Reports t
  /-- It covers a character. -/
  start_le_stop : t.span.start ≤ t.span.stop
  /-- It begins at the cursor or behind it. -/
  cursor_le_start : s.cursor ≤ t.span.start
  /-- It ends inside the source. -/
  stop_lt_length : t.span.stop < s.length
  /-- If no place is reported, it is found by its text. -/
  finds : l.place = none → s.Finds t

/-- The state with the cursor right behind a token. -/
def behind (s : State) (source : String) (t : Token) : State :=
  { s with
    cursor := t.span.stop + 1
    rest := source.toList.drop (t.span.stop + 1) }

variable {source : String} {s s' : State} {l : Lexeme} {t : Token} {e : Event}

/-- A token can be located exactly if the source goes on with its text behind some blanks. -/
theorem exists_locate_eq_ok {kind : TokenKind} {text : String} :
    (∃ x, s.locate kind text = .ok x) ↔ ∃ rest, Text.Spells s.rest [text] rest := by
  simp only [locate, Text.spells_singleton]
  cases text.isEmpty <;> cases text.toList.isPrefixOf? (s.rest.dropWhile Text.isBlank) <;> simp

theorem finds_of_locate {kind : TokenKind} {text : String}
    (h : s.locate kind text = .ok (t, s')) :
    t.kind = kind ∧ t.text = text ∧ s.Finds t ∧
      s' = { s with
        cursor := t.span.stop + 1
        rest := s.rest.drop (t.span.stop + 1 - s.cursor) } := by
  simp only [locate] at h
  split_ifs at h with hempty
  split at h
  · contradiction
  next rest hrest =>
  obtain ⟨rfl, rfl⟩ := Prod.mk.inj (Except.ok.inj h)
  clear h
  have hspells : Text.Spells s.rest [text] rest :=
    Text.spells_singleton.mpr ⟨by simpa using hempty, hrest⟩
  obtain ⟨hsolid, gap, mid, hgap, hsplit, hmid⟩ := Text.spells_cons.mp hspells
  obtain rfl := Text.spells_nil.mp hmid
  have hlength := hsolid.length_pos
  have hskip : s.rest.takeWhile Text.isBlank = gap := by rw [hsplit, hsolid.takeWhile_eq hgap]
  rw [hskip]
  refine ⟨rfl, rfl, ⟨gap, mid, hgap, hsolid, hsplit, rfl, by simp only; omega⟩, ?_⟩
  have hstop : s.cursor + gap.length + text.length - 1 + 1 - s.cursor
      = (gap ++ text.toList).length := by
    rw [List.length_append, String.length_toList]
    omega
  rw [hstop, hsplit, ← List.append_assoc, List.drop_left]

theorem takes_of_locate (hs : s.Reads source) (hl : l.place = none)
    (h : s.locate l.kind l.text = .ok (t, s')) : s.Takes l t ∧ s' = s.behind source t := by
  obtain ⟨hkind, htext, hfinds, rfl⟩ := finds_of_locate h
  obtain ⟨gap, rest, -, hsolid, hsplit, hstart, hstop⟩ := id hfinds
  have hlength := hsolid.length_pos
  have hle : s.cursor + (gap.length + t.text.length) ≤ s.length := by
    have hrest := congrArg List.length hsplit
    have hdrop := congrArg List.length hs.rest_eq
    simp only [List.length_append, List.length_drop, String.length_toList] at hrest hdrop
    have := hs.length_eq
    omega
  refine ⟨⟨⟨hkind, htext, by simp [hl]⟩, by omega, by omega, by omega, fun _ => hfinds⟩, ?_⟩
  rw [behind, hs.rest_eq, List.drop_drop, Nat.add_sub_cancel' (by omega)]

theorem takes_of_check (hs : s.Reads source) {span : Span} (hl : l.place = some span)
    (h : s.check l.kind l.text span = .ok (t, s')) :
    s.Takes l t ∧ s' = s.behind source t := by
  simp only [check] at h
  split_ifs at h with hempty hbefore hpast
  obtain ⟨rfl, rfl⟩ := Prod.mk.inj (Except.ok.inj h)
  have hcover : span.start ≤ span.stop := by
    simp only [Span.length] at hempty
    omega
  refine ⟨⟨⟨rfl, rfl, by simp [hl]⟩, hcover, Nat.not_lt.mp hbefore, by simpa using hpast,
    by simp [hl]⟩, ?_⟩
  rw [behind, hs.rest_eq, List.drop_drop, Nat.add_sub_cancel' (by omega)]

theorem takes_of_take (hs : s.Reads source) (h : s.take l = .ok (t, s')) :
    s.Takes l t ∧ s' = s.behind source t := by
  unfold take at h
  split at h
  · next hl => exact takes_of_locate hs hl h
  · next span hl => exact takes_of_check hs hl h

theorem Reads.behind (hs : s.Reads source) (h : s.Takes l t) : (s.behind source t).Reads source :=
  ⟨hs.length_eq, h.stop_lt_length, rfl⟩

/-! ### One step -/

/-- **What a step can do to the state.** -/
inductive Step (source : String) (s : State) : Event → State → Prop
  | enter {r : RuleId} (hroot : s.opened = [] → s.root = none) :
    Step source s (.enter r)
      { s with next := s.next + 1, opened := ⟨s.next, r, []⟩ :: s.opened }
  | token {l : Lexeme} {t : Token} {top : Opened} {below : List Opened} (ht : s.Takes l t)
      (hopened : s.opened = top :: below) :
    Step source s (.token l)
      { s.behind source t with
        next := s.next + 1
        opened := top.add (.leaf s.next t) :: below
        stream := ⟨t, some top.rule⟩ :: s.stream }
  | hidden {l : Lexeme} {t : Token} (ht : s.Takes l t) :
    Step source s (.hidden l) { s.behind source t with stream := ⟨t, none⟩ :: s.stream }
  | leaveRoot {top : Opened} (hopened : s.opened = [top]) :
    Step source s .leave { s with opened := [], root := some top.close }
  | leaveInner {top around : Opened} {below : List Opened}
      (hopened : s.opened = top :: around :: below) :
    Step source s .leave
      { s with opened := around.add top.close :: below }

theorem step_of_step_eq_ok (hs : s.Reads source) (h : s.step e = .ok s') : s.Step source e s' := by
  cases e with
  | enter r =>
    simp only [step] at h
    split_ifs at h with hroot
    obtain rfl := Except.ok.inj h
    exact .enter (by simpa using hroot)
  | token l =>
    simp only [step] at h
    cases htake : s.take l with
    | error err => rw [htake] at h; contradiction
    | ok p =>
      obtain ⟨t, s₁⟩ := p
      obtain ⟨ht, rfl⟩ := takes_of_take hs htake
      rw [htake] at h
      simp only [bind, Except.bind] at h
      split at h
      · contradiction
      · next top below hopened =>
        obtain rfl := Except.ok.inj h
        exact .token ht hopened
  | hidden l =>
    simp only [step] at h
    cases htake : s.take l with
    | error err => rw [htake] at h; contradiction
    | ok p =>
      obtain ⟨t, s₁⟩ := p
      obtain ⟨ht, rfl⟩ := takes_of_take hs htake
      rw [htake] at h
      obtain rfl := Except.ok.inj h
      exact .hidden ht
  | leave =>
    simp only [step] at h
    split at h
    · contradiction
    · next top below hopened =>
      split at h
      · obtain rfl := Except.ok.inj h
        exact .leaveRoot hopened
      · obtain rfl := Except.ok.inj h
        exact .leaveInner hopened

/-! ### The pieces of the tree -/

/-- The cues of what there is of the tree. -/
def cues (s : State) : List (Cue Token) :=
  s.root.toList.flatMap Tree.cues ++ s.opened.reverse.flatMap Opened.cues

/-- The tokens of what there is of the tree. -/
def visible (s : State) : List StreamToken :=
  s.root.toList.flatMap (·.visible none) ++ s.opened.reverse.flatMap Opened.visible

/-- What holds of every state of a replay. -/
structure Sound (source : String) (s : State) : Prop where
  /-- The source has been read up to the cursor. -/
  reads : s.Reads source
  /-- The tree is not finished while productions have not ended. -/
  root_eq_none : s.opened ≠ [] → s.root = none
  /-- The finished children carry the right spans. -/
  children_spanned : ∀ o ∈ s.opened, ∀ c ∈ o.children, c.Spanned
  /-- So does the finished tree. -/
  root_spanned : ∀ t, s.root = some t → t.Spanned
  /-- Tokens cover characters, and lie before the cursor. -/
  covers : ∀ t ∈ s.stream, t.token.span.start ≤ t.token.span.stop ∧ t.token.span.stop < s.cursor
  /-- A token begins behind the one before it. -/
  ordered : s.stream.Pairwise fun later earlier => earlier.token.span.stop < later.token.span.start
  /-- The visible tokens of the stream are those of the tree. -/
  visible_eq : s.stream.reverse.filter (·.parent.isSome) = s.visible

theorem sound_initial (source : String) : (initial source).Sound source where
  reads := ⟨rfl, Nat.zero_le _, rfl⟩
  root_eq_none h := absurd rfl h
  children_spanned := by simp [initial]
  root_spanned := by simp [initial]
  covers := by simp [initial]
  ordered := List.Pairwise.nil
  visible_eq := rfl

theorem Step.reads (hs : s.Reads source) (h : s.Step source e s') : s'.Reads source := by
  cases h with
  | enter hroot => exact ⟨hs.length_eq, hs.cursor_le, hs.rest_eq⟩
  | token ht hopened =>
    have hb := hs.behind ht
    exact ⟨hb.length_eq, hb.cursor_le, hb.rest_eq⟩
  | hidden ht =>
    have hb := hs.behind ht
    exact ⟨hb.length_eq, hb.cursor_le, hb.rest_eq⟩
  | leaveRoot hopened => exact ⟨hs.length_eq, hs.cursor_le, hs.rest_eq⟩
  | leaveInner hopened => exact ⟨hs.length_eq, hs.cursor_le, hs.rest_eq⟩

theorem Step.root_eq_none (hs : s.opened ≠ [] → s.root = none) (h : s.Step source e s') :
    s'.opened ≠ [] → s'.root = none := by
  cases h with
  | enter hroot =>
    intro _
    rcases eq_or_ne s.opened [] with hnil | hne
    · exact hroot hnil
    · exact hs hne
  | token ht hopened => exact fun _ => hs (by simp [hopened])
  | hidden ht => exact hs
  | leaveRoot hopened => exact fun hne => absurd rfl hne
  | leaveInner hopened => exact fun _ => hs (by simp [hopened])

theorem Step.children_spanned (hs : ∀ o ∈ s.opened, ∀ c ∈ o.children, c.Spanned)
    (h : s.Step source e s') : ∀ o ∈ s'.opened, ∀ c ∈ o.children, c.Spanned := by
  cases h with
  | enter hroot => exact List.forall_mem_cons.mpr ⟨by simp, hs⟩
  | token ht hopened =>
    rw [hopened, List.forall_mem_cons] at hs
    exact List.forall_mem_cons.mpr
      ⟨List.forall_mem_cons.mpr ⟨Tree.spanned_leaf _ _, hs.1⟩, hs.2⟩
  | hidden ht => exact hs
  | leaveRoot hopened => simp
  | leaveInner hopened =>
    rw [hopened, List.forall_mem_cons, List.forall_mem_cons] at hs
    obtain ⟨htop, haround, hbelow⟩ := hs
    exact List.forall_mem_cons.mpr
      ⟨List.forall_mem_cons.mpr ⟨Opened.spanned_close htop, haround⟩, hbelow⟩

theorem Step.root_spanned (hs : s.Sound source) (h : s.Step source e s') :
    ∀ t, s'.root = some t → t.Spanned := by
  cases h with
  | enter hroot => exact hs.root_spanned
  | token ht hopened => exact hs.root_spanned
  | hidden ht => exact hs.root_spanned
  | leaveRoot hopened =>
    intro t ht
    obtain rfl := Option.some.inj ht
    exact Opened.spanned_close (hs.children_spanned _ (by simp [hopened]))
  | leaveInner hopened => exact hs.root_spanned

/-- A step adds at most one token to the stream, and the one it adds is taken behind the
cursor. -/
theorem Step.stream_eq (h : s.Step source e s') :
    (e.lexeme? = none ∧ s'.stream = s.stream ∧ s'.cursor = s.cursor) ∨
      ∃ l t parent, e.lexeme? = some l ∧ s.Takes l t ∧ s'.stream = ⟨t, parent⟩ :: s.stream ∧
        s'.cursor = t.span.stop + 1 := by
  cases h with
  | enter hroot => exact .inl ⟨rfl, rfl, rfl⟩
  | token ht hopened => exact .inr ⟨_, _, _, rfl, ht, rfl, rfl⟩
  | hidden ht => exact .inr ⟨_, _, _, rfl, ht, rfl, rfl⟩
  | leaveRoot hopened => exact .inl ⟨rfl, rfl, rfl⟩
  | leaveInner hopened => exact .inl ⟨rfl, rfl, rfl⟩

theorem Step.covers (hs : s.Sound source) (h : s.Step source e s') :
    ∀ x ∈ s'.stream, x.token.span.start ≤ x.token.span.stop ∧ x.token.span.stop < s'.cursor := by
  rcases h.stream_eq with ⟨-, hstream, hcursor⟩ | ⟨l, t, parent, -, ht, hstream, hcursor⟩
  · rw [hstream, hcursor]
    exact hs.covers
  · rw [hstream, hcursor, List.forall_mem_cons]
    refine ⟨⟨ht.start_le_stop, Nat.lt_succ_self _⟩, fun x hx => ?_⟩
    have hx := hs.covers x hx
    have := ht.cursor_le_start
    have := ht.start_le_stop
    exact ⟨hx.1, by omega⟩

theorem Step.ordered (hs : s.Sound source) (h : s.Step source e s') :
    s'.stream.Pairwise fun later earlier => earlier.token.span.stop < later.token.span.start := by
  rcases h.stream_eq with ⟨-, hstream, -⟩ | ⟨l, t, parent, -, ht, hstream, -⟩
  · rw [hstream]
    exact hs.ordered
  · rw [hstream, List.pairwise_cons]
    exact ⟨fun x hx => Nat.lt_of_lt_of_le (hs.covers x hx).2 ht.cursor_le_start, hs.ordered⟩

theorem Step.visible_eq (hs : s.Sound source) (h : s.Step source e s') :
    s'.stream.reverse.filter (·.parent.isSome) = s'.visible := by
  have hv := hs.visible_eq
  cases h with
  | enter hroot => simpa [visible, Opened.visible] using hv
  | token ht hopened =>
    simp only [visible, hopened, List.reverse_cons, List.flatMap_append, List.flatMap_singleton]
      at hv
    simp [visible, behind, Opened.visible_add, List.filter_append, hv]
  | hidden ht => simpa [visible, behind] using hv
  | leaveRoot hopened =>
    have hroot := hs.root_eq_none (by simp [hopened])
    simpa [visible, hopened, hroot, Opened.visible_close] using hv
  | leaveInner hopened =>
    rw [hv]
    simp [visible, hopened, Opened.visible_add, Opened.visible_close]

theorem Sound.step (hs : s.Sound source) (h : s.step e = .ok s') : s'.Sound source := by
  have h := step_of_step_eq_ok hs.reads h
  exact ⟨h.reads hs.reads, h.root_eq_none hs.root_eq_none, h.children_spanned hs.children_spanned,
    h.root_spanned hs, h.covers hs, h.ordered hs, h.visible_eq hs⟩

/-! ### Whole replays -/

theorem run_cons {events : List Event} : (e :: events).foldlM step s = .ok s' ↔
    ∃ s₁, s.step e = .ok s₁ ∧ events.foldlM step s₁ = .ok s' := by
  rw [List.foldlM_cons]
  cases s.step e with
  | error err => simp [bind, Except.bind]
  | ok s₁ => simp [bind, Except.bind]

theorem sound_of_run (hs : s.Sound source) {events : List Event}
    (h : events.foldlM step s = .ok s') : s'.Sound source := by
  induction events generalizing s with
  | nil =>
    obtain rfl := Except.ok.inj h
    exact hs
  | cons e events ih =>
    obtain ⟨s₁, hstep, hrun⟩ := run_cons.mp h
    exact ih (hs.step hstep) hrun

/-- The productions that have not yet ended, with their numbers. -/
def spine (s : State) : List (Nat × RuleId) := s.opened.map fun o => (o.id, o.rule)

/-- A step adds the cues that its event calls for. -/
theorem Step.cues_eq (hs : s.Sound source) (h : s.Step source e s') :
    ∃ new, s'.cues = s.cues ++ new ∧ ∀ events out, Performs out (script s'.spine s'.next events) →
      Performs (new ++ out) (script s.spine s.next (e :: events)) := by
  cases h with
  | @enter r hroot =>
    refine ⟨[.enter s.next r], by simp [cues, Opened.cues], fun events out hout => ?_⟩
    exact .cons (.enter _ _) hout
  | @token l t top below ht hopened =>
    refine ⟨[.visit s.next t], ?_, fun events out hout => ?_⟩
    · simp [cues, behind, hopened, Opened.cues_add]
    · rw [script, spine, hopened]
      exact .cons (.visit _ ht.reports) hout
  | hidden ht =>
    refine ⟨[], by simp [cues, behind], fun events out hout => ?_⟩
    rwa [script]
  | @leaveRoot top hopened =>
    refine ⟨[.leave top.id top.rule], ?_, fun events out hout => ?_⟩
    · have hroot := hs.root_eq_none (by simp [hopened])
      simpa [cues, hopened, hroot] using top.cues_close
    · rw [spine, hopened, List.map_cons, script]
      exact .cons (.leave _ _) hout
  | @leaveInner top around below hopened =>
    refine ⟨[.leave top.id top.rule], ?_, fun events out hout => ?_⟩
    · simp [cues, hopened, Opened.cues_add, Opened.cues_close]
    · rw [spine, hopened, List.map_cons, script]
      exact .cons (.leave _ _) hout

/-- **The cues of the pieces grow as the events call for.** -/
theorem performs_of_run (hs : s.Sound source) {events : List Event}
    (h : events.foldlM step s = .ok s') :
    ∃ out, s'.cues = s.cues ++ out ∧ Performs out (script s.spine s.next events) := by
  induction events generalizing s with
  | nil =>
    obtain rfl := Except.ok.inj h
    exact ⟨[], (List.append_nil _).symm, .nil⟩
  | cons e events ih =>
    obtain ⟨s₁, hstep, hrun⟩ := run_cons.mp h
    obtain ⟨new, hnew, hscript⟩ := (step_of_step_eq_ok hs.reads hstep).cues_eq hs
    obtain ⟨out, hout, hperf⟩ := ih (hs.step hstep) hrun
    exact ⟨new ++ out, by rw [hout, hnew, List.append_assoc], hscript _ _ hperf⟩

end State

variable {source : String} {events : List Event} {e : Event} {s s' : State}

theorem replay_concat (source : String) (events : List Event) (e : Event) :
    replay source (events ++ [e]) = replay source events >>= (·.step e) := by
  simp [replay]

theorem replay_concat_eq_ok : replay source (events ++ [e]) = .ok s' ↔
    ∃ s, replay source events = .ok s ∧ s.step e = .ok s' := by
  rw [replay_concat]
  cases replay source events with
  | error err => simp [bind, Except.bind]
  | ok s => simp [bind, Except.bind]

theorem sound_of_replay (h : replay source events = .ok s) : s.Sound source :=
  State.sound_of_run (State.sound_initial source) h

end Parse

end Highlighting
