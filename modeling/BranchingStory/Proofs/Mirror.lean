import BranchingStory.Proofs.Effects
import BranchingStory.Proofs.Worlds

/-!
# Plays that move alike

Of all that a play holds, its moves look at the graph, the position, the pending choice, the flags, and
the ids and the bound of the history. Two plays that agree on these still do so after any moves made on both
of them, and each move displays the same on both. Who is shown as speaking depends on the cast besides, so
plays with one cast show the same blocks. All else is for display and steers nothing: what blocks carry
apart from their ids, and the things that are held, which follow from what is displayed.
-/

namespace BranchingStory

/-- A block without what is only displayed. -/
def Block.face (b : Block) : Block := { b with choices := [], graphic := none }

theorem Block.ids_of_faces {blocks others : List Block} (h : blocks.map face = others.map face) :
    blocks.map Block.id = others.map Block.id := by
  have hids := congrArg (List.map Block.id) h
  rwa [List.map_map, List.map_map] at hids

theorem World.Same.carriedOut {w v : World} (h : w.Same v) (displays : List Display) :
    (displays.foldl Display.carriedOut w).Same (displays.foldl Display.carriedOut v) := by
  induction displays generalizing w v with
  | nil => exact h
  | cons display displays ih =>
    cases display with
    | speech choice => exact ih (h.applyEffects choice.effects)
    | reaction n | node n => exact ih (h.apply n)

namespace Play

variable {p q : Play}

/-- The plays agree on all that decides where their moves lead. -/
structure Parallels (p q : Play) : Prop where
  graph : p.script.graph = q.script.graph
  current : p.history.current = q.history.current
  waiting : p.history.waiting = q.history.waiting
  bound : p.history.bound = q.history.bound
  ids : p.history.blocks.map Block.id = q.history.blocks.map Block.id
  flags : p.world.flags = q.world.flags

/-- Whatever moves and changes of flags are made on both plays, they agree afterwards, and one more displays
the same on both and is refused on both or on neither. If the plays have one cast, it shows the same blocks
as well. -/
def StayAlike (p q : Play) : Prop :=
  ∀ operations, (∀ operation ∈ operations, operation.isMove = true ∨ operation.isFlags = true) →
    (p.run operations).Parallels (q.run operations) ∧
    ∀ operation, operation.isMove = true ∨ operation.isFlags = true →
      (p.run operations).displays operation = (q.run operations).displays operation ∧
      ((p.run operations).perform operation).fault = ((q.run operations).perform operation).fault ∧
      (p.script.cast = q.script.cast → (p.run operations).shows operation = (q.run operations).shows operation)

/-- The plays agree on all that their moves look at and bring about. -/
structure Mirrors (p q : Play) : Prop extends Parallels p q where
  cast : p.script.cast = q.script.cast
  blocks : p.history.blocks.map Block.face = q.history.blocks.map Block.face
  items : p.world.items.Same q.world.items
  notes : p.world.notes.Same q.world.notes

namespace Parallels

theorem node? (h : p.Parallels q) : p.node? = q.node? := by
  rw [Play.node?, Play.node?, h.graph, h.current]

theorem hasShown (h : p.Parallels q) (id : Option String) : p.history.hasShown id = q.history.hasShown id := by
  unfold History.hasShown
  cases nonEmpty? id with
  | none => rfl
  | some s =>
    have hany : ∀ blocks : List Block,
        (blocks.any fun b => b.id == some s) = (blocks.map Block.id).any fun id => id == some s := by
      intro blocks
      rw [List.any_map]
      rfl
    dsimp only
    rw [hany p.history.blocks, hany q.history.blocks, h.ids]

theorem upcoming (h : p.Parallels q) : p.upcoming = q.upcoming := by
  have hnext : ∀ here, (p.nextToShow here).value = (q.nextToShow here).value := by
    intro here
    rw [nextToShow_value, nextToShow_value, h.graph, h.flags]
    simp only [h.hasShown]
  rw [Play.upcoming, Play.upcoming, h.waiting, h.node?]
  simp only [hnext]

/-- Blocks with the same ids at the end of two such histories, and the same node to stand at. -/
theorem follow (h : p.Parallels q) {w v : World} (hflags : w.flags = v.flags) {old other : History}
    (hbound : old.bound = other.bound) (hold : old.blocks.map Block.id = other.blocks.map Block.id)
    {blocks added : List Block} (hnew : blocks.map Block.id = added.map Block.id) (next : Option Node) :
    Parallels { p with world := w, history := (old.append blocks).follow next }
      { q with world := v, history := (other.append added).follow next } := by
  refine ⟨h.graph, ?_, ?_, ?_, ?_, hflags⟩
  · rw [History.follow_current, History.follow_current]
  · rw [History.follow_waiting, History.follow_waiting]
  · rw [History.follow_bound, History.follow_bound]
    exact hbound
  · simp only [History.follow_blocks, History.append_blocks, ← latest_map, List.map_append, hold, hnew, hbound]

theorem rendered (h : p.Parallels q) (n : Node) : (p.rendered n).Parallels (q.rendered n) := by
  have hflags : (p.world.apply n).value.flags = (q.world.apply n).value.flags :=
    congrArg (Flags.setAll · n.effects) h.flags
  refine h.follow hflags h.bound h.ids ?_ n.standing
  simp [upcomingBlock]

theorem atEnd (h : p.Parallels q) : p.atEnd.Parallels q.atEnd :=
  ⟨h.graph, rfl, rfl, h.bound, h.ids, h.flags⟩

theorem begun (h : p.Parallels q) : Parallels { p with begun := true } { q with begun := true } :=
  ⟨h.graph, h.current, h.waiting, h.bound, h.ids, h.flags⟩

theorem advance (h : p.Parallels q) : p.advance.play.Parallels q.advance.play := by
  cases hw : p.history.waiting with
  | true =>
    rw [advance_of_waiting hw, advance_of_waiting (h.waiting.symm.trans hw)]
    exact h
  | false =>
    have hw' : q.history.waiting = false := h.waiting.symm.trans hw
    cases hn : p.upcoming with
    | none =>
      rw [(advance_of_none hw hn).1, (advance_of_none hw' (h.upcoming.symm.trans hn)).1]
      exact h.atEnd
    | some n =>
      rw [(advance_of_upcoming hn).1, (advance_of_upcoming (h.upcoming.symm.trans hn)).1]
      exact h.rendered n

/-! ## Choices -/

theorem choiceAt (h : p.Parallels q) (index : Int) : p.choiceAt index = q.choiceAt index := by
  rw [Play.choiceAt, Play.choiceAt, pendingChoices, pendingChoices, h.waiting, h.node?]

theorem chosenNode (h : p.Parallels q) (choice : Choice) : p.chosenNode choice = q.chosenNode choice := by
  rw [Play.chosenNode, Play.chosenNode, choiceTarget, choiceTarget, h.graph, h.flags, h.node?]

theorem chosenWorld_flags (h : p.Parallels q) (choice : Choice) :
    (p.chosenWorld choice).flags = (q.chosenWorld choice).flags := by
  have hset : (p.world.applyEffects choice.effects).value.flags = (q.world.applyEffects choice.effects).value.flags :=
    congrArg (Flags.setAll · choice.effects) h.flags
  rw [Play.chosenWorld, Play.chosenWorld, ← h.chosenNode choice, World.applyOption, World.applyOption]
  simp only [World.applyAll_flags, hset]

theorem chosenBlocks_ids (h : p.Parallels q) (choice : Choice) :
    (p.chosenBlocks choice).map Block.id = (q.chosenBlocks choice).map Block.id := by
  have hid : ∀ (r : Play) (w : World), Block.id ∘ r.blockIn w = Node.id := fun r w => funext fun n => blockIn_id w n
  simp only [Play.chosenBlocks, spokenBlocks, List.map_append, List.map_cons, List.map_map, hid, blockIn_id,
    h.chosenNode choice]

theorem answered_map (h : p.Parallels q) {α : Type} (view : Block → α) (id : α → Option String)
    (hid : ∀ b, id (view b) = b.id) (hblocks : p.history.blocks.map view = q.history.blocks.map view) :
    p.answered.blocks.map view = q.answered.blocks.map view := by
  rw [answered, answered, ← h.node?]
  cases p.node? with
  | none => exact hblocks
  | some prompt =>
    dsimp only [Option.elim, History.removeFirst]
    cases nonEmpty? prompt.id with
    | none => exact hblocks
    | some name =>
      have herase : ∀ blocks : List Block, (blocks.eraseP fun b => b.id == some name).map view =
          (blocks.map view).eraseP fun entry => id entry == some name := by
        intro blocks
        simp only [List.eraseP_map, Function.comp_def, hid]
      exact (herase _).trans ((congrArg _ hblocks).trans (herase _).symm)

theorem chosen (h : p.Parallels q) (choice : Choice) : (p.chosen choice).Parallels (q.chosen choice) := by
  have hids : p.answered.blocks.map Block.id = q.answered.blocks.map Block.id :=
    h.answered_map Block.id (fun id => id) (fun _ => rfl) h.ids
  rw [Play.chosen, Play.chosen, ← h.chosenNode choice]
  refine h.follow (h.chosenWorld_flags choice) ?_ hids (h.chosenBlocks_ids choice) _
  rw [answered_bound, answered_bound, h.bound]

theorem choose (h : p.Parallels q) (choice : Choice) :
    (p.choose choice).play.Parallels (q.choose choice).play := by
  cases hw : p.history.waiting with
  | true =>
    rw [(choose_of_waiting choice hw).1, (choose_of_waiting choice (h.waiting.symm.trans hw)).1]
    exact h.chosen choice
  | false =>
    rw [choose_of_not_waiting choice hw, choose_of_not_waiting choice (h.waiting.symm.trans hw)]
    exact h

theorem chooseIndex (h : p.Parallels q) (index : Int) :
    (p.chooseIndex index).play.Parallels (q.chooseIndex index).play := by
  cases hchoice : p.choiceAt index with
  | some choice =>
    rw [chooseIndex_of_some hchoice, chooseIndex_of_some ((h.choiceAt index).symm.trans hchoice)]
    exact h.choose choice
  | none =>
    obtain ⟨_, hrefuse, _⟩ := chooseIndex_of_none hchoice
    obtain ⟨_, hrefuse', _⟩ := chooseIndex_of_none ((h.choiceAt index).symm.trans hchoice)
    rw [hrefuse, hrefuse']
    exact h

theorem move (h : p.Parallels q) {operation : Operation} (hmove : operation.isMove = true) :
    (p.perform operation).play.Parallels (q.perform operation).play := by
  cases operation with
  | begin =>
    rw [perform, perform, begin_eq.1, begin_eq.1]
    exact h.advance.begun
  | advance => exact h.advance
  | chooseIndex index => exact h.chooseIndex index
  | _ => exact absurd hmove Bool.false_ne_true

theorem perform (h : p.Parallels q) {operation : Operation}
    (hoperation : operation.isMove = true ∨ operation.isFlags = true) :
    (p.perform operation).play.Parallels (q.perform operation).play := by
  rcases hoperation with hmove | hflags
  · exact h.move hmove
  · cases operation with
    | flags held => exact ⟨h.graph, h.current, h.waiting, h.bound, h.ids, rfl⟩
    | _ => exact absurd hflags Bool.false_ne_true

theorem run (h : p.Parallels q) {operations : List Operation}
    (hoperations : ∀ operation ∈ operations, operation.isMove = true ∨ operation.isFlags = true) :
    (p.run operations).Parallels (q.run operations) := by
  induction operations generalizing p q with
  | nil => exact h
  | cons operation operations ih =>
    apply ih (h.perform (hoperations operation List.mem_cons_self))
    intro other hother
    exact hoperations other (List.mem_cons_of_mem _ hother)

/-! ## What a move shows -/

theorem taken (h : p.Parallels q) (operation : Operation) : p.taken operation = q.taken operation := by
  cases operation with
  | choose choice => rw [Play.taken, Play.taken, h.waiting]
  | chooseIndex index => exact h.choiceAt index
  | _ => rfl

theorem displays (h : p.Parallels q) (operation : Operation) :
    p.displays operation = q.displays operation := by
  have hchosen : p.chosenNode = q.chosenNode := funext h.chosenNode
  have hdisplayed : p.displayed operation = q.displayed operation := by
    cases operation with
    | begin | advance => exact h.upcoming
    | _ => simp only [Play.displayed, h.taken, hchosen]
  rw [Play.displays, Play.displays, h.taken operation, hdisplayed]

/-- With one cast the plays show the same blocks, and who is speaking in them is the same. -/
theorem shows (h : p.Parallels q) (hcast : p.script.cast = q.script.cast) {operation : Operation}
    (hoperation : operation.isMove = true ∨ operation.isFlags = true) : p.shows operation = q.shows operation := by
  have hflags := (h.perform hoperation).flags
  have hblock : ∀ n, p.blockIn (p.perform operation).play.world n = q.blockIn (q.perform operation).play.world n := by
    intro n
    rw [Play.blockIn, Play.blockIn, freeze, freeze, hcast, hflags]
  rw [shows_eq_map, shows_eq_map, funext hblock, h.displays operation]

theorem fault (h : p.Parallels q) {operation : Operation}
    (hoperation : operation.isMove = true ∨ operation.isFlags = true) :
    (p.perform operation).fault = (q.perform operation).fault := by
  cases operation with
  | begin =>
    rw [Play.perform, Play.perform, begin_eq.2.2, begin_eq.2.2, advance_fault, advance_fault]
  | advance => exact advance_fault.trans advance_fault.symm
  | chooseIndex index =>
    cases hchoice : p.choiceAt index with
    | some choice =>
      have hchoice' : q.choiceAt index = some choice := (h.choiceAt index).symm.trans hchoice
      rw [Play.perform, Play.perform, chooseIndex_of_some hchoice, chooseIndex_of_some hchoice', choose_fault,
        choose_fault]
    | none =>
      have hchoice' : q.choiceAt index = none := (h.choiceAt index).symm.trans hchoice
      cases hw : p.history.waiting with
      | true =>
        rw [Play.perform, Play.perform, chooseIndex_of_waiting hw hchoice,
          chooseIndex_of_waiting (h.waiting.symm.trans hw) hchoice', h.current]
        rfl
      | false =>
        have hw' : q.history.waiting = false := h.waiting.symm.trans hw
        simp [Play.perform, Play.chooseIndex, hw, hw', refuse]
  | flags held => rfl
  | choose _ | startAmbience | reset | restore _ => simp [Operation.isMove, Operation.isFlags] at hoperation

theorem stayAlike (h : p.Parallels q) : p.StayAlike q := by
  intro operations hoperations
  have halike := h.run hoperations
  refine ⟨halike, fun operation hoperation => ⟨halike.displays operation, halike.fault hoperation, fun hcast => ?_⟩⟩
  exact halike.shows (by rw [run_script, run_script, hcast]) hoperation

theorem mirrors (h : p.Parallels q) (hcast : p.script.cast = q.script.cast)
    (hblocks : p.history.blocks.map Block.face = q.history.blocks.map Block.face) (hworld : p.world.Same q.world) :
    p.Mirrors q :=
  ⟨h, hcast, hblocks, hworld.items, hworld.notes⟩

end Parallels

namespace Mirrors

theorem world (h : p.Mirrors q) : p.world.Same q.world := ⟨h.flags, h.items, h.notes⟩

theorem cleared_faces (h : p.Mirrors q) (operation : Operation) :
    (p.cleared operation).blocks.map Block.face = (q.cleared operation).blocks.map Block.face := by
  rw [cleared, cleared, h.taken operation]
  split
  · exact h.answered_map Block.face Block.id (fun _ => rfl) h.blocks
  · exact h.blocks

theorem perform_faces (h : p.Mirrors q) {operation : Operation} (hmove : operation.isMove = true) :
    (p.perform operation).play.history.blocks.map Block.face =
      (q.perform operation).play.history.blocks.map Block.face := by
  have hshown : (p.perform operation).shown = (q.perform operation).shown := h.shows h.cast (.inl hmove)
  rcases perform_blocks_of_isMove (p := p) hmove with ⟨hnone, hp⟩ | ⟨hsome, hp⟩
  · rcases perform_blocks_of_isMove (p := q) hmove with ⟨_, hq⟩ | ⟨hsome, _⟩
    · rw [hp, hq, h.blocks]
    · exact absurd (hshown.symm.trans hnone) hsome
  · rcases perform_blocks_of_isMove (p := q) hmove with ⟨hnone, _⟩ | ⟨_, hq⟩
    · exact absurd (hshown.trans hnone) hsome
    · rw [hp, hq, ← latest_map, ← latest_map, List.map_append, List.map_append, h.cleared_faces, hshown, h.bound]

theorem move (h : p.Mirrors q) {operation : Operation} (hmove : operation.isMove = true) :
    (p.perform operation).play.Mirrors (q.perform operation).play := by
  have hflags : operation.isFlags = false := by
    cases operation <;> first | rfl | exact absurd hmove Bool.false_ne_true
  refine (h.toParallels.move hmove).mirrors ?_ (h.perform_faces hmove) ?_
  · rw [perform_script, perform_script, h.cast]
  · rw [perform_world operation hflags, perform_world operation hflags, h.displays operation]
    exact h.world.carriedOut _

theorem run (h : p.Mirrors q) {operations : List Operation}
    (hmoves : ∀ operation ∈ operations, operation.isMove = true) :
    (p.run operations).Mirrors (q.run operations) := by
  induction operations generalizing p q with
  | nil => exact h
  | cons operation operations ih =>
    apply ih (h.move (hmoves operation List.mem_cons_self))
    intro other hother
    exact hmoves other (List.mem_cons_of_mem _ hother)

end Mirrors
end Play
end BranchingStory
