import BranchingStory.Proofs.Consistency

/-!
# The history is the end of the display log

The display log is what a screen without a bound would hold: all blocks that were put on display, in
order, with every answered prompt taken out again. A history holds the last blocks of the log and no
others. The one step where that could go wrong is an answer, since a full history has already lost a
block to the prompt that is now taken out. The blocks that an answer adds make up for it, and the prompt
taken out is the last block and no other, because no earlier block has the id of a prompt.
-/

namespace BranchingStory

namespace Play

variable (p : Play)

/-- The display log after one more operation. Advancing adds the block of the upcoming node. An answer takes
the prompt out and adds the player's line, the reactions in order and the node that the choice leads to. -/
def logged (log : List Block) : Operation → List Block
  | .begin | .advance => log ++ p.upcoming.toList.map p.upcomingBlock
  | .chooseIndex index => (p.choiceAt index).elim log fun choice => log.dropLast ++ p.chosenBlocks choice
  | _ => log

def displayLog (p : Play) (log : List Block) : List Operation → List Block
  | [] => log
  | operation :: operations => (p.perform operation).play.displayLog (p.logged log operation) operations

/-- The part of the log that waits for no answer. -/
def settled (log : List Block) : List Block := if p.history.waiting then log.dropLast else log

/-- What ties a play to its display log. -/
structure Follows (log : List Block) : Prop where
  bound : p.history.bound = p.script.bound.toNat
  room : 1 ≤ p.history.bound
  blocks : p.history.blocks = latest p.history.bound log
  last : log ≠ [] → p.history.current ≠ none →
    ∃ n frozen, p.node? = some n ∧ log.getLast? = some (Block.ofNode n frozen)
  pending : p.history.waiting = true → log ≠ [] ∧ ∃ n, p.node? = some n ∧ n.isPrompt = true
  noPrompt : ∀ b ∈ p.settled log, ∀ n, p.script.graph.find? b.id = some n → n.isPrompt = false

end Play

/-- No reaction to a choice of the graph goes by the id of a prompt. -/
def Graph.ReactionsApart (g : Graph) : Prop :=
  ∀ n ∈ g.nodes, ∀ choice ∈ n.choices, ∀ reaction ∈ choice.reactions, ∀ prompt,
    g.find? reaction.id = some prompt → prompt.isPrompt = false

instance (g : Graph) : Decidable g.ReactionsApart :=
  decidable_of_iff (∀ n ∈ g.nodes, ∀ choice ∈ n.choices, ∀ reaction ∈ choice.reactions,
    ((g.find? reaction.id).all fun prompt => !prompt.isPrompt) = true) <| by
    simp only [Graph.ReactionsApart, Option.all_eq_true, Bool.not_eq_true']

namespace Play

variable {p : Play} {log : List Block}

theorem Follows.fresh {script : Script} {world : World} (hmake : make script world none = .ok p) :
    p.Follows [] ∧ p.script = script := by
  obtain ⟨_, hp⟩ := make_eq_ok hmake
  obtain ⟨hbound, rfl⟩ := fresh?_eq_some hp
  refine ⟨⟨rfl, ?_, (latest_eq_self (Nat.zero_le _)).symm, fun h => absurd rfl h,
    fun h => absurd h Bool.false_ne_true, ?_⟩, rfl⟩
  · show 1 ≤ script.bound.toNat
    omega
  · intro b hb
    exact absurd hb List.not_mem_nil

theorem Follows.ended (hlog : p.Follows log) (hw : p.history.waiting = false) :
    p.atEnd.Follows log := by
  refine ⟨hlog.bound, hlog.room, hlog.blocks, fun _ h => absurd rfl h,
    fun h => absurd h Bool.false_ne_true, ?_⟩
  intro b hb
  apply hlog.noPrompt b
  simpa [settled, hw, atEnd, History.ended] using hb

theorem Follows.rendered {n : Node} (hlog : p.Follows log) (h : p.upcoming = some n) :
    (p.rendered n).Follows (log ++ [p.upcomingBlock n]) := by
  have hw := waiting_of_upcoming h
  have hfind := find?_of_upcoming h
  have hid : n.id ≠ none := fun hnone => by simp [hnone] at hfind
  have hwaiting : (p.rendered n).history.waiting = n.isPrompt := by
    rw [Play.rendered, History.follow_waiting, Node.standing_any_isPrompt]
  have hnode : (p.rendered n).history.current ≠ none → (p.rendered n).node? = some n := by
    intro hcurrent
    rw [Play.rendered, History.follow_current] at hcurrent
    have hstands : n.standing ≠ none := fun hnone => hcurrent (by rw [hnone]; rfl)
    obtain ⟨m, hm⟩ := Option.ne_none_iff_exists'.mp hstands
    obtain rfl := Node.standing_eq_some hm
    rw [node?, Play.rendered, History.follow_current, hm]
    exact hfind
  refine ⟨?_, ?_, ?_, ?_, ?_, ?_⟩
  · simpa [Play.rendered] using hlog.bound
  · simpa [Play.rendered] using hlog.room
  · simp [Play.rendered, hlog.blocks, latest_append_latest]
  · intro _ hcurrent
    obtain ⟨frozen, hblock⟩ := p.blockIn_eq_ofNode (p.world.apply n).value n
    exact ⟨n, frozen, hnode hcurrent, by rw [List.getLast?_concat, upcomingBlock, hblock]⟩
  · intro h
    have hprompt : n.isPrompt = true := hwaiting.symm.trans h
    refine ⟨by simp, n, hnode ?_, hprompt⟩
    simp [Play.rendered, Node.standing, hprompt, hid]
  · intro b hb m hm
    have hold : b ∈ log → m.isPrompt = false := fun hb =>
      hlog.noPrompt b (by simpa [settled, hw] using hb) m hm
    cases hprompt : n.isPrompt with
    | true => exact hold (by simpa [settled, hwaiting, hprompt] using hb)
    | false =>
      simp only [settled, hwaiting, hprompt, Bool.false_eq_true, if_false, List.mem_append,
        List.mem_singleton] at hb
      rcases hb with hb | rfl
      · exact hold hb
      · rw [upcomingBlock, blockIn_id] at hm
        obtain rfl : n = m := Option.some.inj (hfind.symm.trans hm)
        exact hprompt

/-- The pending prompt leaves the history from its end, whatever that has lost at its beginning. -/
theorem Follows.answered (hlog : p.Follows log) (hw : p.history.waiting = true) :
    p.answered.blocks = latest (p.history.bound - 1) log.dropLast := by
  obtain ⟨hne, prompt, hnode, hprompt⟩ := hlog.pending hw
  have hfind : p.script.graph.find? prompt.id = some prompt := Graph.find?_id hnode
  have hcurrent : p.history.current ≠ none := fun h => by simp [h] at hnode
  obtain ⟨n, frozen, hn, hlast⟩ := hlog.last hne hcurrent
  obtain rfl : prompt = n := Option.some.inj (hnode.symm.trans hn)
  have hsplit : log = log.dropLast ++ [Block.ofNode prompt frozen] := by
    obtain ⟨earlier, rfl⟩ := List.getLast?_eq_some_iff.mp hlast
    rw [List.dropLast_concat]
  obtain ⟨id, hid⟩ : ∃ id, nonEmpty? prompt.id = some id := by
    refine Option.ne_none_iff_exists'.mp fun hnone => ?_
    rw [Graph.find?_of_nonEmpty?_none hnone] at hfind
    exact absurd hfind.symm (Option.some_ne_none _)
  have hothers : ∀ b ∈ latest (p.history.bound - 1) log.dropLast, ¬ (b.id == some id) = true := by
    intro b hb hbid
    have hbprompt : p.script.graph.find? b.id = some prompt := by
      rw [beq_iff_eq.mp hbid, ← (nonEmpty?_eq_some.mp hid).1]
      exact hfind
    have hquiet := hlog.noPrompt b (by simpa [settled, hw] using mem_of_mem_latest hb) prompt hbprompt
    exact absurd (hquiet.symm.trans hprompt) Bool.false_ne_true
  have hlastid : ((Block.ofNode prompt frozen).id == some id) = true := by
    simp [Block.ofNode, (nonEmpty?_eq_some.mp hid).1]
  calc p.answered.blocks
      = p.history.blocks.eraseP fun b => b.id == some id := by
        simp [Play.answered, hnode, History.removeFirst, hid]
    _ = (latest (p.history.bound - 1) log.dropLast ++ [Block.ofNode prompt frozen]).eraseP
          fun b => b.id == some id := by
        rw [hlog.blocks, ← latest_append_singleton _ _ hlog.room, ← hsplit]
    _ = latest (p.history.bound - 1) log.dropLast := by
        rw [List.eraseP_append_right _ hothers]
        simp [hlastid]

/-- After an answer the settled log ends with what was said, and with the next node unless that waits in
its turn. -/
theorem settled_chosen {choice : Choice} (old : List Block) :
    (p.chosen choice).settled (old ++ p.chosenBlocks choice) = old ++ (p.spokenBlocks choice ++
      ((p.chosenNode choice).toList.filter fun n => !n.isPrompt).map (p.blockIn (p.chosenWorld choice))) := by
  unfold settled
  rw [Play.chosen, History.follow_waiting, chosenBlocks]
  cases p.chosenNode choice with
  | none => simp
  | some next =>
    cases hprompt : next.isPrompt with
    | true =>
      simp only [Option.any_some, hprompt, if_true, Option.toList_some, List.map_singleton]
      rw [← List.append_assoc, List.dropLast_concat]
      simp [hprompt]
    | false => simp [hprompt]

theorem Follows.chosen {choice : Choice} (hlog : p.Follows log) (hw : p.history.waiting = true)
    (hreactions : ∀ reaction ∈ choice.reactions, ∀ prompt,
      p.script.graph.find? reaction.id = some prompt → prompt.isPrompt = false) :
    (p.chosen choice).Follows (log.dropLast ++ p.chosenBlocks choice) := by
  have hnode : ∀ n, p.chosenNode choice = some n → (p.chosen choice).node? = some n := by
    intro n hn
    rw [node?, Play.chosen, History.follow_current, hn]
    exact Graph.find?_id hn
  refine ⟨?_, ?_, ?_, ?_, ?_, ?_⟩
  · simpa [Play.chosen] using hlog.bound
  · simpa [Play.chosen] using hlog.room
  · have hnew : 1 ≤ (p.chosenBlocks choice).length :=
      List.length_pos_iff.mpr (chosenBlocks_ne_nil choice)
    simp only [Play.chosen, History.follow_blocks, History.follow_bound, History.append_blocks,
      History.append_bound, answered_bound, hlog.answered hw]
    exact latest_append_latest_of_le _ _ (by omega)
  · intro _ hcurrent
    rw [Play.chosen, History.follow_current] at hcurrent
    have hleads : p.chosenNode choice ≠ none := fun hnone => hcurrent (by rw [hnone]; rfl)
    obtain ⟨n, hn⟩ := Option.ne_none_iff_exists'.mp hleads
    obtain ⟨frozen, hblock⟩ := p.blockIn_eq_ofNode (p.chosenWorld choice) n
    refine ⟨n, frozen, hnode n hn, ?_⟩
    rw [chosenBlocks, hn, Option.toList_some, List.map_singleton, hblock, ← List.append_assoc,
      List.getLast?_concat]
  · intro h
    rw [Play.chosen, History.follow_waiting] at h
    obtain ⟨n, hn, hprompt⟩ := (Option.any_eq_true _ _).mp h
    exact ⟨List.append_ne_nil_of_right_ne_nil _ (chosenBlocks_ne_nil choice), n, hnode n hn, hprompt⟩
  · intro b hb n hn
    rw [settled_chosen] at hb
    rcases List.mem_append.mp hb with hb | hb
    · exact hlog.noPrompt b (by simpa [settled, hw] using hb) n hn
    · rcases List.mem_append.mp hb with hb | hb
      · rcases id_of_mem_spokenBlocks hb with hid | ⟨reaction, hreaction, hid⟩
        · rw [hid] at hn
          exact absurd hn.symm (Option.some_ne_none n)
        · exact hreactions reaction hreaction n (hid ▸ hn)
      · obtain ⟨next, hnext, rfl⟩ := List.mem_map.mp hb
        obtain ⟨hleads, hprompt⟩ := List.mem_filter.mp hnext
        have hfind : p.script.graph.find? next.id = some next :=
          Graph.find?_id (Option.mem_toList.mp hleads)
        rw [blockIn_id] at hn
        obtain rfl : next = n := Option.some.inj (hfind.symm.trans hn)
        simpa using hprompt

theorem Follows.advance (hlog : p.Follows log) :
    p.advance.play.Follows (log ++ p.upcoming.toList.map p.upcomingBlock) := by
  cases h : p.upcoming with
  | some n =>
    rw [(advance_of_upcoming h).1]
    exact hlog.rendered h
  | none =>
    rw [Option.toList_none, List.map_nil, List.append_nil]
    cases hw : p.history.waiting with
    | true =>
      rw [advance_of_waiting hw]
      exact hlog
    | false =>
      rw [(advance_of_none hw h).1]
      exact hlog.ended hw

/-- Every operation of a player, and every change of flags, keeps history and log together. -/
theorem Follows.perform {operation : Operation} (hlog : p.Follows log)
    (hreactions : p.script.graph.ReactionsApart)
    (hoperation : operation.isMove = true ∨ operation.isFlags = true) :
    (p.perform operation).play.Follows (p.logged log operation) := by
  cases operation with
  | begin =>
    have hadvance := hlog.advance
    rw [Play.perform, logged, begin_eq.1]
    exact ⟨hadvance.bound, hadvance.room, hadvance.blocks, hadvance.last, hadvance.pending, hadvance.noPrompt⟩
  | advance => exact hlog.advance
  | chooseIndex index =>
    cases h : p.choiceAt index with
    | some choice =>
      have hw := waiting_of_choiceAt h
      obtain ⟨prompt, hprompt, hchoice⟩ := exists_node?_of_choiceAt h
      rw [Play.perform, logged, h, Option.elim_some, chooseIndex_of_some h, (choose_of_waiting choice hw).1]
      exact hlog.chosen hw (hreactions prompt (Graph.mem_of_find? hprompt) choice hchoice)
    | none =>
      obtain ⟨fault, hrefuse, _⟩ := chooseIndex_of_none h
      rw [Play.perform, logged, h, Option.elim_none, hrefuse]
      exact hlog
  | flags held => exact ⟨hlog.bound, hlog.room, hlog.blocks, hlog.last, hlog.pending, hlog.noPrompt⟩
  | choose _ | startAmbience | reset | restore _ => simp [Operation.isMove, Operation.isFlags] at hoperation

theorem Follows.run {operations : List Operation} (hlog : p.Follows log)
    (hreactions : p.script.graph.ReactionsApart)
    (hoperations : ∀ operation ∈ operations, operation.isMove = true ∨ operation.isFlags = true) :
    (p.run operations).Follows (p.displayLog log operations) := by
  induction operations generalizing p log with
  | nil => exact hlog
  | cons operation operations ih =>
    rw [run_cons, displayLog]
    apply ih
    · exact hlog.perform hreactions (hoperations operation List.mem_cons_self)
    · rw [perform_script]
      exact hreactions
    · intro other hother
      exact hoperations other (List.mem_cons_of_mem _ hother)

/-- The history of a fresh play holds exactly the last blocks of the display log, whatever the bound. The
log ends with the block of the present node, as long as there is one. While a choice is pending that
block is the prompt, and no other block of the history has its id. -/
theorem run_blocks_eq_latest_displayLog {script : Script} {world : World} {p : Play}
    {operations : List Operation} (hmake : make script world none = .ok p)
    (hreactions : script.graph.ReactionsApart)
    (hoperations : ∀ operation ∈ operations, operation.isMove = true ∨ operation.isFlags = true) :
    (p.run operations).history.blocks = latest script.bound.toNat (p.displayLog [] operations) ∧
    (p.displayLog [] operations ≠ [] → (p.run operations).history.isEnded = false →
      ∃ n frozen, (p.run operations).node? = some n ∧
        (p.displayLog [] operations).getLast? = some (Block.ofNode n frozen)) ∧
    ((p.run operations).history.waiting = true →
      ∃ n frozen others, (p.run operations).node? = some n ∧ n.isPrompt = true ∧
        (p.displayLog [] operations).getLast? = some (Block.ofNode n frozen) ∧
        (p.run operations).history.blocks = others ++ [Block.ofNode n frozen] ∧
        ∀ other ∈ others, other.id ≠ n.id) := by
  obtain ⟨hfresh, hscript⟩ := Follows.fresh hmake
  have hlog := hfresh.run (by rw [hscript]; exact hreactions) hoperations
  have hbound : (p.run operations).history.bound = script.bound.toNat := by
    rw [hlog.bound, run_script, hscript]
  refine ⟨by rw [hlog.blocks, hbound], fun hne hend => ?_, fun hw => ?_⟩
  · exact hlog.last hne fun hnone => by simp [History.isEnded, hnone] at hend
  · obtain ⟨hne, n, hn, hprompt⟩ := hlog.pending hw
    have hcurrent : (p.run operations).history.current ≠ none := fun hnone => by simp [hnone] at hn
    obtain ⟨m, frozen, hm, hlast⟩ := hlog.last hne hcurrent
    obtain rfl : n = m := Option.some.inj (hn.symm.trans hm)
    refine ⟨n, frozen, latest ((p.run operations).history.bound - 1) (p.displayLog [] operations).dropLast,
      hn, hprompt, hlast, ?_, fun other hother heq => ?_⟩
    · obtain ⟨earlier, hsplit⟩ := List.getLast?_eq_some_iff.mp hlast
      rw [hlog.blocks, hsplit, List.dropLast_concat, latest_append_singleton _ _ hlog.room]
    · have hfind : (p.run operations).script.graph.find? other.id = some n := by
        rw [heq]
        exact Graph.find?_id hn
      have hsettled : other ∈ (p.run operations).settled (p.displayLog [] operations) := by
        rw [settled, hw, if_pos rfl]
        exact mem_of_mem_latest hother
      exact absurd ((hlog.noPrompt other hsettled n hfind).symm.trans hprompt) Bool.false_ne_true

/-- A story whose prompt comes back after an answer with two reactions; one of them goes by the id of the
opening. -/
def echoGraph : Graph :=
  { nodes :=
      [{ id := some "opening", kind := .singleParagraph, next := some "ask" },
       { id := some "ask", kind := .dialogueChoice,
         choices :=
           [{ text := "Again", next := some "ask",
              reactions :=
                [{ id := some "opening", kind := .singleParagraph },
                 { kind := .characterDialogue, speaker := some (.named "host") }] }] }] }

def echoPlay : Play :=
  { script := { graph := echoGraph, bound := 2 }
    history := { current := some "opening", bound := 2 }
    world := { items := { kind := .items }, notes := { kind := .notes } } }

/-- The opening, the prompt, an answer and another one. -/
def echoOperations : List Operation := [.begin, .advance, .chooseIndex 0, .flags [], .chooseIndex 0]

/-- Each answer has left the player's line and the two reactions in the log, and the prompt only stands at
the end. The history has room for the last reaction and the prompt. -/
theorem echoPlay_blocks_eq_latest :
    make echoPlay.script echoPlay.world none = .ok echoPlay ∧ echoPlay.script.graph.ReactionsApart ∧
      (echoPlay.displayLog [] echoOperations).map (fun b => (b.id, b.text)) =
        [(some "opening", .single ""),
         (none, .paragraphs ["Again"]), (some "opening", .single ""), (none, .single ""),
         (none, .paragraphs ["Again"]), (some "opening", .single ""), (none, .single ""),
         (some "ask", .single "")] ∧
      (echoPlay.run echoOperations).history.blocks = latest 2 (echoPlay.displayLog [] echoOperations) ∧
      (echoPlay.run echoOperations).history.blocks.map Block.id = [none, some "ask"] := by
  have hmake : make echoPlay.script echoPlay.world none = .ok echoPlay := rfl
  have hreactions : echoPlay.script.graph.ReactionsApart := by decide
  have hoperations : ∀ operation ∈ echoOperations, operation.isMove = true ∨ operation.isFlags = true := by
    decide
  refine ⟨hmake, hreactions, ?log, (run_blocks_eq_latest_displayLog hmake hreactions hoperations).1, ?kept⟩
  case log => decide +kernel
  case kept => decide +kernel

end Play
end BranchingStory
