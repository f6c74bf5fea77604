import BranchingStory.Play.Engine
import BranchingStory.Proofs.Orbit

/-!
# What a move does

Advancing and choosing come down to one change of the history: blocks are added at its end, after the
answered prompt has been taken out, and the story then stands at a node or is over. This module says so
in equations, one for each way a move can go; what is proved about runs rests on these equations and
opens no move again.
-/

namespace BranchingStory

/-- The history once the story stands at a node, or is over. A prompt is pending as soon as the story
stands at it. -/
def History.follow (h : History) : Option Node → History
  | none => h.ended
  | some n => { h with current := n.id, waiting := n.isPrompt }

/-- Where the story stands after a node has been shown: at a node that nothing follows it is over,
unless that is a prompt. -/
def Node.standing (n : Node) : Option Node :=
  if n.isPrompt || n.hasSuccessor then some n else none

theorem Node.standing_eq_some {n m : Node} (h : n.standing = some m) : n = m := by
  unfold Node.standing at h
  split at h
  · exact Option.some.inj h
  · exact absurd h.symm (Option.some_ne_none m)

theorem Node.standing_any_isPrompt (n : Node) : n.standing.any Node.isPrompt = n.isPrompt := by
  unfold Node.standing
  cases hprompt : n.isPrompt <;> cases hsucc : n.hasSuccessor <;> simp [hprompt]

namespace History

variable (h : History) (next : Option Node)

@[simp] theorem follow_blocks : (h.follow next).blocks = h.blocks := by cases next <;> rfl

@[simp] theorem follow_bound : (h.follow next).bound = h.bound := by cases next <;> rfl

@[simp] theorem follow_current : (h.follow next).current = next.bind Node.id := by
  cases next <;> rfl

@[simp] theorem follow_waiting : (h.follow next).waiting = next.any Node.isPrompt := by
  cases next <;> rfl

@[simp] theorem append_bound (blocks : List Block) : (h.append blocks).bound = h.bound := rfl

@[simp] theorem append_blocks (blocks : List Block) :
    (h.append blocks).blocks = latest h.bound (h.blocks ++ blocks) := rfl

@[simp] theorem removeFirst_bound (id : Option String) : (h.removeFirst id).bound = h.bound := by
  unfold removeFirst
  split <;> rfl

end History

namespace Play

variable (p : Play)

/-- The block of a node as it is shown in a world. -/
def blockIn (world : World) (n : Node) : Block := (p.freeze world n).value

/-- The node that advancing shows, if it shows one. -/
def upcoming : Option Node :=
  if p.history.waiting then none else p.node?.bind fun here => (p.nextToShow here).value

/-- The block that shows a node by advancing: all effects of the node happen before. -/
def upcomingBlock (n : Node) : Block := p.blockIn (p.world.apply n).value n

def rendered (n : Node) : Play :=
  { p with
    world := (p.world.apply n).value
    history := (p.history.append [p.upcomingBlock n]).follow n.standing }

/-- The choice of the pending prompt that an index takes. -/
def choiceAt (index : Int) : Option Choice :=
  if index < 0 then none else p.pendingChoices[index.toNat]?

def chosenNode (choice : Choice) : Option Node :=
  p.script.graph.find? (p.choiceTarget choice).value

/-- The world after a choice: its own effects, those of its reactions, and those of the node it leads
to. -/
def chosenWorld (choice : Choice) : World :=
  ((((p.world.applyEffects choice.effects).value.applyAll choice.reactions).value).applyOption
    (p.chosenNode choice)).value

/-- The player's line and one block for each reaction. -/
def spokenBlocks (choice : Choice) : List Block :=
  p.blockIn (p.chosenWorld choice) (speech choice) ::
    choice.reactions.map (p.blockIn (p.chosenWorld choice))

/-- What a choice puts on display: the player's line, the reactions, and the node that the choice leads
to. -/
def chosenBlocks (choice : Choice) : List Block :=
  p.spokenBlocks choice ++ (p.chosenNode choice).toList.map (p.blockIn (p.chosenWorld choice))

def answered : History := p.node?.elim p.history fun prompt => p.history.removeFirst prompt.id

def chosen (choice : Choice) : Play :=
  { p with
    world := p.chosenWorld choice
    history := (p.answered.append (p.chosenBlocks choice)).follow (p.chosenNode choice) }

variable {p}

@[simp] theorem node?_of_ended (h : p.history.current = none) : p.node? = none := by
  rw [node?, h, Graph.find?_none]

theorem waiting_of_upcoming {n : Node} (h : p.upcoming = some n) : p.history.waiting = false := by
  unfold upcoming at h
  split at h
  · exact absurd h.symm (Option.some_ne_none n)
  · rename_i hw
    simpa using hw

theorem exists_node?_of_upcoming {n : Node} (h : p.upcoming = some n) :
    ∃ here, p.node? = some here ∧ (p.nextToShow here).value = some n := by
  have hw := waiting_of_upcoming h
  rw [upcoming, hw] at h
  exact Option.bind_eq_some_iff.mp h

theorem nextToShow_value (here : Node) :
    (p.nextToShow here).value =
      (p.script.graph.renderableOf p.world.flags (some here)).value.bind fun first =>
        if p.history.hasShown first.id then
          (p.script.graph.renderableOf p.world.flags
            (p.script.graph.find? (p.script.graph.nextOf p.world.flags (some first)).value)).value
        else some first := by
  unfold nextToShow
  cases h : (p.script.graph.renderableOf p.world.flags (some here)).value with
  | none => simp [h]
  | some first =>
    simp only [Told.value_bind, h, Option.bind_some]
    split <;> rfl

/-- How the upcoming node is found: it is the first that may be shown from the position, or that one is on
display and it is the first behind it. -/
theorem upcoming_cases {n : Node} (h : p.upcoming = some n) : ∃ here first, p.node? = some here ∧
    (p.script.graph.renderableOf p.world.flags (some here)).value = some first ∧
    (p.history.hasShown first.id = false ∧ first = n ∨
      p.history.hasShown first.id = true ∧ (p.script.graph.renderableOf p.world.flags
        (p.script.graph.find? (p.script.graph.nextOf p.world.flags (some first)).value)).value = some n) := by
  obtain ⟨here, hhere, hshow⟩ := exists_node?_of_upcoming h
  rw [nextToShow_value] at hshow
  obtain ⟨first, hfirst, hshow⟩ := Option.bind_eq_some_iff.mp hshow
  refine ⟨here, first, hhere, hfirst, ?_⟩
  split at hshow
  · rename_i hshown
    exact .inr ⟨hshown, hshow⟩
  · rename_i hshown
    exact .inl ⟨Bool.eq_false_iff.mpr hshown, Option.some.inj hshow⟩

theorem find?_of_upcoming {n : Node} (h : p.upcoming = some n) :
    p.script.graph.find? n.id = some n := by
  obtain ⟨here, first, hhere, hfirst, ⟨_, rfl⟩ | ⟨_, hbehind⟩⟩ := upcoming_cases h
  · rw [← hhere] at hfirst
    exact Graph.find?_of_renderableOf hfirst
  · exact Graph.find?_of_renderableOf hbehind

/-! ## Blocks -/

theorem blockIn_eq_ofNode (world : World) (n : Node) : ∃ frozen, p.blockIn world n = Block.ofNode n frozen := by
  unfold blockIn freeze
  split
  · exact ⟨_, Told.value_map _ _⟩
  · exact ⟨none, rfl⟩

@[simp] theorem blockIn_id (world : World) (n : Node) : (p.blockIn world n).id = n.id := by
  obtain ⟨frozen, h⟩ := p.blockIn_eq_ofNode world n
  rw [h, Block.ofNode]

@[simp] theorem freezeAll_value (world : World) (nodes : List Node) :
    (p.freezeAll world nodes).value = nodes.map (p.blockIn world) := by
  induction nodes with
  | nil => rfl
  | cons n nodes ih => simp [freezeAll, ih, blockIn]

/-! ## Advancing -/

theorem render_play {n : Node} (hw : p.history.waiting = false) :
    (p.render n).play = p.rendered n := by
  unfold render rendered Node.standing
  by_cases hprompt : n.isPrompt = true
  · simp [hprompt, Turn.checked, History.follow, upcomingBlock, blockIn]
  · by_cases hsucc : n.hasSuccessor = true
    · simp [hprompt, hsucc, Turn.checked, History.follow, History.append, upcomingBlock, blockIn, hw]
    · simp [hprompt, hsucc, Turn.checked, History.follow, atEnd, upcomingBlock, blockIn]

theorem render_shown (n : Node) : (p.render n).shown = [p.upcomingBlock n] := rfl

theorem render_fault {n : Node} (hw : p.history.waiting = false) :
    (p.render n).fault = (p.rendered n).fault? := by
  rw [← render_play hw]
  rfl

theorem advance_of_upcoming {n : Node} (h : p.upcoming = some n) :
    p.advance.play = p.rendered n ∧ p.advance.shown = [p.upcomingBlock n] ∧
      p.advance.fault = (p.rendered n).fault? := by
  have hw := waiting_of_upcoming h
  obtain ⟨here, hhere, hshow⟩ := exists_node?_of_upcoming h
  cases hc : p.history.current with
  | none => simp [hc] at hhere
  | some position => simp [advance, hc, hw, hhere, hshow, render_play hw, render_shown, render_fault hw]

theorem advance_of_waiting (h : p.history.waiting = true) : p.advance = p.idle := by
  unfold advance
  cases hc : p.history.current with
  | none => rfl
  | some position => simp [h]

theorem advance_of_none (hw : p.history.waiting = false) (h : p.upcoming = none) :
    p.advance.play = p.atEnd ∧ p.advance.shown = [] ∧ p.advance.fault = none := by
  cases hc : p.history.current with
  | none =>
    have hstay : p.atEnd = p := by
      obtain ⟨script, ⟨current, blocks, waiting, bound⟩, world, begun, ambienceStarted⟩ := p
      simp_all [atEnd, History.ended]
    simp [advance, hc, idle, hstay]
  | some position =>
    cases hhere : p.node? with
    | none => simp [advance, hc, hw, hhere]
    | some here =>
      have hshow : (p.nextToShow here).value = none := by simpa [upcoming, hw, hhere] using h
      simp [advance, hc, hw, hhere, hshow]

theorem advance_begun (begun : Bool) :
    ({ p with begun } : Play).advance.play = { p.advance.play with begun } ∧
      ({ p with begun } : Play).advance.shown = p.advance.shown ∧
      ({ p with begun } : Play).advance.fault = p.advance.fault := by
  cases hw : p.history.waiting with
  | true =>
    rw [advance_of_waiting (p := p) hw, advance_of_waiting (p := { p with begun }) hw]
    exact ⟨rfl, rfl, rfl⟩
  | false =>
    cases h : p.upcoming with
    | none =>
      obtain ⟨hplay, hshown, hfault⟩ := advance_of_none hw h
      obtain ⟨hplay', hshown', hfault'⟩ := advance_of_none (p := { p with begun }) hw h
      exact ⟨by rw [hplay, hplay']; rfl, by rw [hshown, hshown'], by rw [hfault, hfault']⟩
    | some n =>
      obtain ⟨hplay, hshown, hfault⟩ := advance_of_upcoming h
      obtain ⟨hplay', hshown', hfault'⟩ := advance_of_upcoming (p := { p with begun }) h
      exact ⟨by rw [hplay, hplay']; rfl, by rw [hshown, hshown']; rfl, by rw [hfault, hfault']; rfl⟩

theorem begin_eq : p.begin.play = { p.advance.play with begun := true } ∧
    p.begin.shown = p.advance.shown ∧ p.begin.fault = p.advance.fault := by
  have hmarked := advance_begun (p := p) true
  by_cases hb : p.begun = true
  · have hp : ({ p with begun := true } : Play) = p := by rw [← hb]
    have hbegin : p.begin = p.advance := by simp [begin, hb]
    have hplay := hmarked.1
    rw [hp] at hplay
    rw [hbegin]
    exact ⟨hplay, rfl, rfl⟩
  · simpa [begin, hb] using hmarked

/-! ## Choosing -/

theorem chosenBlocks_ne_nil (choice : Choice) : p.chosenBlocks choice ≠ [] := List.cons_ne_nil _ _

theorem id_of_mem_spokenBlocks {choice : Choice} {b : Block} (h : b ∈ p.spokenBlocks choice) :
    b.id = none ∨ ∃ reaction ∈ choice.reactions, b.id = reaction.id := by
  rcases List.mem_cons.mp h with rfl | h
  · exact .inl (blockIn_id _ _)
  · obtain ⟨reaction, hreaction, rfl⟩ := List.mem_map.mp h
    exact .inr ⟨reaction, hreaction, blockIn_id _ _⟩

@[simp] theorem answered_bound : p.answered.bound = p.history.bound := by
  cases h : p.node? <;> simp [answered, h]

theorem mem_of_mem_answered {b : Block} (h : b ∈ p.answered.blocks) : b ∈ p.history.blocks := by
  unfold answered at h
  cases hn : p.node? with
  | none =>
    rw [hn] at h
    exact h
  | some prompt =>
    rw [hn] at h
    dsimp only [Option.elim, History.removeFirst] at h
    split at h
    · exact h
    · exact List.mem_of_mem_eraseP h

/-- Every block that a choice puts on display shows some node in the world after it. -/
theorem exists_of_mem_chosenBlocks {choice : Choice} {b : Block} (h : b ∈ p.chosenBlocks choice) :
    ∃ n, b = p.blockIn (p.chosenWorld choice) n := by
  rcases List.mem_append.mp h with h | h
  · rcases List.mem_cons.mp h with rfl | h
    · exact ⟨speech choice, rfl⟩
    · obtain ⟨reaction, _, rfl⟩ := List.mem_map.mp h
      exact ⟨reaction, rfl⟩
  · obtain ⟨n, _, rfl⟩ := List.mem_map.mp h
    exact ⟨n, rfl⟩

theorem choose_of_waiting (choice : Choice) (hw : p.history.waiting = true) :
    (p.choose choice).play = p.chosen choice ∧
      (p.choose choice).shown = p.chosenBlocks choice ∧
      (p.choose choice).fault = (p.chosen choice).fault? := by
  have hplay : (p.choose choice).play = p.chosen choice := by
    cases hnext : p.script.graph.find? (p.choiceTarget choice).value <;>
      simp [choose, hw, Turn.checked, chosen, chosenWorld, chosenBlocks, spokenBlocks, chosenNode,
        answered, hnext, History.follow, atEnd, History.append]
  refine ⟨hplay, ?_, ?_⟩
  · cases hnext : p.script.graph.find? (p.choiceTarget choice).value <;>
      simp [choose, hw, Turn.checked, chosenWorld, chosenBlocks, spokenBlocks, chosenNode, hnext]
  · rw [← hplay]
    simp [choose, hw, Turn.checked]

theorem choose_of_not_waiting (choice : Choice) (hw : p.history.waiting = false) :
    p.choose choice = p.idle := by
  simp [choose, hw]

theorem waiting_of_choiceAt {index : Int} {choice : Choice} (h : p.choiceAt index = some choice) :
    p.history.waiting = true := by
  by_contra hw
  simp [choiceAt, pendingChoices, hw] at h

theorem chooseIndex_of_some {index : Int} {choice : Choice} (h : p.choiceAt index = some choice) :
    p.chooseIndex index = p.choose choice := by
  have hw := waiting_of_choiceAt h
  unfold choiceAt at h
  split at h
  · exact absurd h.symm (Option.some_ne_none _)
  · rename_i hindex
    simp [chooseIndex, hw, hindex, h]

theorem chooseIndex_of_waiting (hw : p.history.waiting = true) {index : Int} (h : p.choiceAt index = none) :
    p.chooseIndex index = p.refuse (.noSuchChoice index p.history.current) := by
  unfold choiceAt at h
  by_cases hindex : index < 0
  · simp [chooseIndex, hw, hindex]
  · simp [chooseIndex, hw, hindex, by simpa [hindex] using h]

theorem chooseIndex_of_none {index : Int} (h : p.choiceAt index = none) :
    ∃ fault, p.chooseIndex index = p.refuse fault ∧
      (fault = .noChoicePending ∨ fault = .noSuchChoice index p.history.current) := by
  by_cases hw : p.history.waiting = true
  · exact ⟨.noSuchChoice index p.history.current, chooseIndex_of_waiting hw h, .inr rfl⟩
  · exact ⟨.noChoicePending, by simp [chooseIndex, hw], .inl rfl⟩

theorem exists_node?_of_choiceAt {index : Int} {choice : Choice} (h : p.choiceAt index = some choice) :
    ∃ prompt, p.node? = some prompt ∧ choice ∈ prompt.choices := by
  have hw := waiting_of_choiceAt h
  unfold choiceAt at h
  split at h
  · exact absurd h.symm (Option.some_ne_none _)
  · have hmem : choice ∈ p.pendingChoices := List.mem_of_getElem? h
    cases hn : p.node? with
    | none => simp [pendingChoices, hw, hn] at hmem
    | some prompt => exact ⟨prompt, rfl, by simpa [pendingChoices, hw, hn] using hmem⟩

end Play
end BranchingStory
