import Highlighting.Proofs.ArenaTrees

/-!
# What a parse is made of

A parse is read off an arena, and by `Parse.ofEvents_eq_replay` it is what the replay of the events
ends with. So what is known of every state of a replay holds of every parse: its tree carries the
right spans over the tokens of the stream, and its cues are those that the events call for.
Everything that the rest of the theory needs to know of a parse is here, and the arena is not
mentioned any more.

## Main definitions

* `Parse.Sound`: what holds of every parse

## Main results

* `Parse.sound_of_ofEvents`: every parse that events describe is sound
* `Parse.performs_of_ofEvents`: the tree tells what the events told
* `Parse.map_id_nodes`: the nodes of the tree are numbered from `0` on
-/

namespace Highlighting

namespace Parse

variable {source : String} {events : List Event} {p : Parse}

/-- A parse is the end of a replay. -/
theorem exists_run_of_ofEvents (h : ofEvents source events = .ok p) :
    ∃ s, replay source events = .ok s ∧ s.opened = [] ∧
      s.root = some p.root ∧ p.stream = s.stream.reverse := by
  rw [ofEvents_eq_replay] at h
  cases hrun : replay source events with
  | error err => rw [hrun] at h; contradiction
  | ok s =>
    rw [hrun] at h
    change s.finish = .ok p at h
    unfold State.finish at h
    split_ifs at h with hopened
    split at h
    · contradiction
    · next root hroot =>
      obtain rfl := Except.ok.inj h
      exact ⟨s, rfl, by simpa using hopened, hroot, rfl⟩

/-- What holds of every parse that a replay makes. -/
structure Sound (source : String) (p : Parse) : Prop where
  /-- Productions carry the right spans. -/
  spanned : p.root.Spanned
  /-- Tokens cover characters, and lie inside the source. -/
  covers : ∀ x ∈ p.stream, x.token.span.start ≤ x.token.span.stop ∧
    x.token.span.stop < source.length
  /-- A token begins behind the one before it. -/
  ordered : p.stream.Pairwise fun x y => x.token.span.stop < y.token.span.start
  /-- The visible tokens of the stream are those of the tree. -/
  visible_eq : p.stream.filter (·.parent.isSome) = p.root.visible none

/-- **Every parse that events describe is sound.** -/
theorem sound_of_ofEvents (h : ofEvents source events = .ok p) : p.Sound source := by
  obtain ⟨s, hrun, hopened, hroot, hstream⟩ := exists_run_of_ofEvents h
  have hs := sound_of_replay hrun
  refine ⟨hs.root_spanned _ hroot, fun x hx => ?_, ?_, ?_⟩
  · rw [hstream, List.mem_reverse] at hx
    obtain ⟨hle, hlt⟩ := hs.covers x hx
    have := hs.reads.cursor_le
    have := hs.reads.length_eq
    exact ⟨hle, by omega⟩
  · rw [hstream, List.pairwise_reverse]
    exact hs.ordered
  · rw [hstream, hs.visible_eq]
    simp [State.visible, hroot, hopened]

/-- **The tree tells what the events told.** Its cues are those that the events call for. -/
theorem performs_of_ofEvents (h : ofEvents source events = .ok p) :
    Performs p.root.cues (script [] 0 events) := by
  obtain ⟨s, hrun, hopened, hroot, -⟩ := exists_run_of_ofEvents h
  obtain ⟨out, hout, hperf⟩ := State.performs_of_run (State.sound_initial source) hrun
  have hcues : p.root.cues = out := by
    simpa [State.cues, hroot, hopened, State.initial] using hout
  rw [hcues]
  exact hperf

/-- The nodes of the tree, parents first, are numbered from `0` on. -/
theorem map_id_nodes (h : ofEvents source events = .ok p) :
    p.root.nodes.map Tree.id = List.range (events.countP Event.makesNode) := by
  have harrived := (performs_of_ofEvents h).map_eq Cue.Matches.arrived?_eq
  calc p.root.nodes.map Tree.id
      = (p.root.cues.map Cue.arrived?).filterMap id := by
        rw [List.filterMap_map, ← Tree.filterMap_arrived?_cues]
        rfl
    _ = (script [] 0 events).filterMap Cue.arrived? := by
        rw [harrived, List.filterMap_map]
        rfl
    _ = List.range (events.countP Event.makesNode) := by
        rw [filterMap_arrived?_script, List.range_eq_range']

theorem nodeCount_eq (h : ofEvents source events = .ok p) :
    p.nodeCount = events.countP Event.makesNode := by
  have hlen := congrArg List.length (map_id_nodes h)
  rwa [List.length_map, List.length_range, Tree.nodes, List.length_cons] at hlen

end Parse

end Highlighting
