import Highlighting.Proofs.Parses

/-!
# A walk reenacts the events

A replay and a walk are two machines with a stack each. The one turns events into a tree, the other
turns a tree into notices. `walk_reenacts_events` says that the second undoes the first: the notices
of a walk over a tree are the events that built it, hidden tokens apart. The middle ground is the
list of cues, on which a half-built tree and a finished one can be compared.

The order matters for highlighting. Rules are applied when a production is left, and what makes an
enclosing production have the last word is that it is left after everything beneath it.

## Main definitions

* `Notice.Follows`: a notice is the one that a cue calls for
* `Notice.token?`: the token that a notice is about

## Main results

* `walk_reenacts_events`
-/

namespace Highlighting

namespace Notice

/-- The notice is the one that a cue calls for. -/
def Follows : Notice → Cue Lexeme → Prop
  | enter s, .enter n r => s.tree.id = n ∧ s.tree.rule? = some r
  | visit s, .visit n l => s.tree.id = n ∧ ∃ t, s.tree.token? = some t ∧ l.Reports t
  | leave s, .leave n r => s.tree.id = n ∧ s.tree.rule? = some r
  | _, _ => False

/-- The token that is visited. -/
def token? : Notice → Option Token
  | visit s => s.tree.token?
  | enter _ | leave _ => none

theorem follows_of_cue? {n : Notice} {x : Cue Token} {y : Cue Lexeme} (hn : n.cue? = some x)
    (hxy : x.Matches (fun t l => Lexeme.Reports l t) y) : n.Follows y := by
  cases n with
  | enter s =>
    obtain ⟨r, hr, rfl⟩ := Option.map_eq_some_iff.mp hn
    cases hxy
    exact ⟨rfl, hr⟩
  | visit s =>
    obtain ⟨t, ht, rfl⟩ := Option.map_eq_some_iff.mp hn
    cases hxy with
    | visit _ hl => exact ⟨rfl, t, ht, hl⟩
  | leave s =>
    obtain ⟨r, hr, rfl⟩ := Option.map_eq_some_iff.mp hn
    cases hxy
    exact ⟨rfl, hr⟩

theorem token?_eq_bind (n : Notice) : n.token? = n.cue?.bind Cue.visited? := by
  cases n with
  | enter s => cases h : s.tree.rule? <;> simp [token?, cue?, Cue.visited?, h]
  | visit s => cases h : s.tree.token? <;> simp [token?, cue?, Cue.visited?, h]
  | leave s => cases h : s.tree.rule? <;> simp [token?, cue?, Cue.visited?, h]

end Notice

namespace Site

theorem forall₂_follows {s : Site} {ys : List (Cue Lexeme)} (h : Parse.Performs s.tree.cues ys) :
    List.Forall₂ Notice.Follows s.notices ys := by
  have hcues := s.map_cue?_notices
  generalize s.notices = ns at hcues ⊢
  generalize s.tree.cues = xs at hcues h
  induction h generalizing ns with
  | nil =>
    rw [List.map_nil, List.map_eq_nil_iff] at hcues
    rw [hcues]
    exact .nil
  | cons hxy _ ih =>
    cases ns with
    | nil => contradiction
    | cons n ns =>
      obtain ⟨hn, hns⟩ := List.cons.inj hcues
      exact .cons (Notice.follows_of_cue? hn hxy) (ih ns hns)

theorem filterMap_token?_notices (s : Site) :
    s.notices.filterMap Notice.token? = s.tree.tokens := by
  calc s.notices.filterMap Notice.token?
      = (s.notices.map Notice.cue?).filterMap (·.bind Cue.visited?) := by
        rw [List.filterMap_map]
        exact List.filterMap_congr fun n _ => n.token?_eq_bind
    _ = s.tree.cues.filterMap Cue.visited? := by
        rw [map_cue?_notices, List.filterMap_map]
        rfl
    _ = s.tree.tokens := s.tree.filterMap_visited?_cues

end Site

/-- **A walk over a parse reenacts the events that it was made from.** Whatever listens hears the
same list of notices, and that list is the list of events without the hidden tokens: a production is
entered where it began and left, under the number and the rule with which it began, where it ended,
and the visible tokens of the stream are visited one by one. Nodes are reached in the order of their
numbers; every production is left once, and nothing beneath it is heard afterwards. -/
theorem walk_reenacts_events {source : String} {events : List Event} {p : Parse}
    (h : Parse.ofEvents source events = .ok p) :
    let root := Site.ofRoot p.root
    (∀ (σ : Type) (listen : σ → Notice → σ) (state : σ),
        root.walk listen state = root.notices.foldl listen state) ∧
      List.Forall₂ Notice.Follows root.notices (Parse.script [] 0 events) ∧
      root.notices.filterMap Notice.token? = (p.stream.filter (·.parent.isSome)).map (·.token) ∧
      p.nodeCount = events.countP Event.makesNode ∧
      root.arrivals.map (·.tree.id) = List.range p.nodeCount ∧
      (root.departures.map (·.tree)).Perm (p.root.nodes.filter fun t => !t.isLeaf) ∧
      Site.Forgets root.notices := by
  have hsound := Parse.sound_of_ofEvents h
  have hids := Parse.map_id_nodes h
  refine ⟨fun σ listen state => Site.walk_eq_foldl listen state _,
    Site.forall₂_follows (Parse.performs_of_ofEvents h), ?_, Parse.nodeCount_eq h, ?_,
    Site.departures_perm _, Site.forgets_notices ?_⟩
  · rw [Site.filterMap_token?_notices, hsound.visible_eq, Tree.map_token_visible]
    rfl
  · have hnodes : (Site.ofRoot p.root).arrivals.map Site.tree = p.root.nodes :=
      Site.map_tree_arrivals _
    rw [Parse.nodeCount_eq h, ← hids, ← hnodes, List.map_map]
    rfl
  · exact hids ▸ List.nodup_range

/-- The theorem at a nested production without tokens, a comment and a token with a given span. -/
theorem walk_reenacts_events_nested :
    ∃ p, Parse.ofEvents "f /*x*/ y"
        [.enter 1, .token ⟨7, "f", none⟩, .enter 2, .enter 3, .leave, .hidden ⟨8, "/*x*/", none⟩,
          .token ⟨7, "y", some ⟨8, 8⟩⟩, .leave, .leave] = .ok p ∧
      List.Forall₂ Notice.Follows (Site.ofRoot p.root).notices
        [.enter 0 1, .visit 1 ⟨7, "f", none⟩, .enter 2 2, .enter 3 3, .leave 3 3,
          .visit 4 ⟨7, "y", some ⟨8, 8⟩⟩, .leave 2 2, .leave 0 1] ∧
      (Site.ofRoot p.root).arrivals.map (·.tree.id) = List.range p.nodeCount := by
  obtain ⟨p, h⟩ : ∃ p, Parse.ofEvents "f /*x*/ y"
      [.enter 1, .token ⟨7, "f", none⟩, .enter 2, .enter 3, .leave, .hidden ⟨8, "/*x*/", none⟩,
        .token ⟨7, "y", some ⟨8, 8⟩⟩, .leave, .leave] = .ok p :=
    ⟨_, (Parse.ofEvents_eq_replay _ _).trans rfl⟩
  obtain ⟨-, hfollows, -, -, harrivals, -⟩ := walk_reenacts_events h
  exact ⟨p, h, hfollows, harrivals⟩

end Highlighting
