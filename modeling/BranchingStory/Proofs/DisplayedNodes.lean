import BranchingStory.Proofs.Links
import BranchingStory.Proofs.Operation

/-!
# What a turn puts on display

An operation may take a choice, and it may show one node of the graph: the upcoming one, or the one that the
choice leads to. What it puts on display is then known: the player's line and the reactions of the choice
first, and the block of the node at the end, all as they are in the world after the turn.

A node that the story comes to by itself may be shown under the flags that the turn looked at. What an answer
leads to need not be: the target of a choice and the target of a branch are followed as they are written.
-/

namespace BranchingStory
namespace Play

variable (p : Play)

/-- The choice that an operation takes, if it takes one. -/
def taken : Operation → Option Choice
  | .choose choice => if p.history.waiting then some choice else none
  | .chooseIndex index => p.choiceAt index
  | _ => none

/-- The node of the graph that an operation puts on display, if it does. -/
def displayed : Operation → Option Node
  | .begin | .advance => p.upcoming
  | operation => (p.taken operation).bind p.chosenNode

/-- The flags by which an operation finds its way: those before it, with the effects of the choice that it
takes. -/
def viewed (operation : Operation) : Flags :=
  (p.taken operation).elim p.world.flags fun choice => p.world.flags.setAll choice.effects

/-- The blocks of an operation: what is said by taking a choice, and then the block of the node that it puts on
display, as they are in the world after the turn. -/
def turnBlocks (operation : Operation) : List Block :=
  (p.taken operation).elim [] p.spokenBlocks ++
    (p.displayed operation).toList.map (p.blockIn (p.perform operation).play.world)

variable {p}

@[simp] theorem displayed_choose (choice : Choice) :
    p.displayed (.choose choice) = if p.history.waiting then p.chosenNode choice else none := by
  unfold displayed taken
  cases p.history.waiting <;> rfl

@[simp] theorem displayed_chooseIndex (index : Int) :
    p.displayed (.chooseIndex index) = (p.choiceAt index).bind p.chosenNode := rfl

theorem upcoming_of_waiting (hw : p.history.waiting = true) : p.upcoming = none := if_pos hw

/-! ## Blocks -/

theorem advance_shown : p.advance.shown = p.upcoming.toList.map (p.blockIn p.advance.play.world) := by
  cases hw : p.history.waiting with
  | true => rw [advance_of_waiting hw, upcoming_of_waiting hw, idle, Option.toList_none, List.map_nil]
  | false =>
    cases h : p.upcoming with
    | none => rw [(advance_of_none hw h).2.1, Option.toList_none, List.map_nil]
    | some n =>
      obtain ⟨hplay, hshown, _⟩ := advance_of_upcoming h
      rw [hplay, hshown, Option.toList_some, List.map_singleton]
      rfl

theorem choose_shown (choice : Choice) : (p.choose choice).shown =
    if p.history.waiting then p.chosenBlocks choice else [] := by
  cases hw : p.history.waiting with
  | true => exact (choose_of_waiting choice hw).2.1
  | false =>
    rw [choose_of_not_waiting choice hw]
    rfl

theorem perform_shown (operation : Operation) : (p.perform operation).shown = p.turnBlocks operation := by
  -- A choice that is taken leaves the world in which its blocks were made.
  have htaken : ∀ choice, p.history.waiting = true → (p.choose choice).shown = p.spokenBlocks choice ++
      (p.chosenNode choice).toList.map (p.blockIn (p.choose choice).play.world) := by
    intro choice hw
    obtain ⟨hplay, hshown, _⟩ := choose_of_waiting choice hw
    rw [hplay, hshown]
    rfl
  rw [turnBlocks]
  cases operation with
  | begin =>
    obtain ⟨hplay, hshown, _⟩ := begin_eq (p := p)
    rw [perform, hplay, hshown, advance_shown]
    rfl
  | advance => exact advance_shown
  | choose choice =>
    cases hw : p.history.waiting with
    | true => simpa [perform, taken, hw] using htaken choice hw
    | false => simp [perform, taken, hw, choose_shown]
  | chooseIndex index =>
    cases h : p.choiceAt index with
    | some choice =>
      rw [perform, chooseIndex_of_some h, taken, h, displayed_chooseIndex, h]
      exact htaken choice (waiting_of_choiceAt h)
    | none =>
      obtain ⟨fault, hrefuse, _⟩ := chooseIndex_of_none h
      rw [perform, hrefuse, taken, h, displayed_chooseIndex, h]
      rfl
  | startAmbience =>
    rw [perform, startAmbience]
    split <;> rfl
  | reset =>
    rw [perform, reset]
    split <;> rfl
  | restore snapshot =>
    rw [perform, restore, restoreFrom]
    split
    · rfl
    · dsimp only
      split
      · rfl
      · unfold startAmbience
        split <;> rfl
  | flags held => rfl

/-! ## Gates -/

theorem satisfiedBy_of_upcoming {n : Node} (h : p.upcoming = some n) :
    n.satisfiedBy p.world.flags = true := by
  obtain ⟨here, first, _, hfirst, ⟨_, rfl⟩ | ⟨_, hbehind⟩⟩ := upcoming_cases h
  · exact Graph.satisfiedBy_of_renderableOf hfirst
  · exact Graph.satisfiedBy_of_renderableOf hbehind

/-- Where a choice leads: to its own target, or to what a walk from the prompt comes to. -/
theorem chosenNode_cases {choice : Choice} {n : Node} (h : p.chosenNode choice = some n) :
    p.script.graph.find? choice.next = some n ∨ nonEmpty? choice.next = none ∧
      ∃ prompt, p.node? = some prompt ∧
        p.script.graph.ComesTo (p.world.flags.setAll choice.effects) prompt n := by
  unfold chosenNode choiceTarget at h
  cases hnext : nonEmpty? choice.next with
  | some id =>
    left
    rw [hnext] at h
    exact (Graph.find?_eq_node? hnext).trans h
  | none =>
    right
    rw [hnext] at h
    cases hprompt : p.node? with
    | none => simp [hprompt, Graph.nextOf] at h
    | some prompt =>
      rw [hprompt] at h
      exact ⟨rfl, prompt, rfl, Graph.comesTo_of_next h⟩

/-- A node of the graph that a turn puts on display may be shown under the flags that the turn looked at,
unless an answer leads to it as it is written: by the target of the choice, or, if the choice has none, by
a branch that holds, of the prompt or of a node that the walk from the prompt has passed to. -/
theorem displayed_satisfiedBy_or_written (p : Play) (operation : Operation) :
    (p.perform operation).shown = p.turnBlocks operation ∧
    ∀ n, p.displayed operation = some n →
      n.satisfiedBy (p.viewed operation) = true ∨
      ∃ choice, p.taken operation = some choice ∧
        (p.script.graph.find? choice.next = some n ∨
          nonEmpty? choice.next = none ∧ ∃ prompt source, p.node? = some prompt ∧
            Relation.ReflTransGen (p.script.graph.Passes (p.viewed operation)) prompt source ∧
            ∃ branch ∈ source.branches, (p.viewed operation).meet branch.conditions = true ∧
              p.script.graph.find? branch.next = some n) := by
  refine ⟨perform_shown operation, ?_⟩
  intro n hn
  cases htaken : p.taken operation with
  | none =>
    -- Only advancing shows a node without a choice.
    left
    rw [viewed, htaken, Option.elim_none]
    cases operation with
    | begin => exact satisfiedBy_of_upcoming hn
    | advance => exact satisfiedBy_of_upcoming hn
    | _ => simp [displayed, htaken] at hn
  | some choice =>
    have hview : p.viewed operation = p.world.flags.setAll choice.effects := by
      rw [viewed, htaken, Option.elim_some]
    have hnode : p.chosenNode choice = some n := by
      cases operation with
      | choose _ | chooseIndex _ => simpa [displayed, htaken] using hn
      | _ => exact absurd htaken.symm (Option.some_ne_none choice)
    rw [hview]
    rcases chosenNode_cases hnode with hown | ⟨hnone, prompt, hprompt, hcomes⟩
    · exact .inr ⟨choice, rfl, .inl hown⟩
    · rcases hcomes.satisfiedBy_or_branch with hmeet | ⟨source, hpasses, hbranch⟩
      · exact .inl hmeet
      · exact .inr ⟨choice, rfl, .inr ⟨hnone, prompt, source, hprompt, hpasses, hbranch⟩⟩

/-- A door with a vault behind it that is shut without a key. One answer goes there by its own target, the
other by a branch of the prompt. -/
def vaultGraph : Graph :=
  { nodes :=
      [{ id := some "door", kind := .dialogueChoice, branches := [{ next := some "vault" }],
         choices := [{ text := "Break in", next := some "vault" }, { text := "Knock" }] },
       { id := some "vault", kind := .singleParagraph, conditions := [("key", .bool true)] }] }

def vaultPlay : Play :=
  { script := { graph := vaultGraph }
    history := ⟨some "door", [], false, 10⟩
    world := { items := { kind := .items }, notes := { kind := .notes } } }

/-- Both answers show the vault to a player without the key. -/
theorem vaultPlay_shows_gated :
    make vaultPlay.script vaultPlay.world none = .ok vaultPlay ∧
      ∀ index ∈ [(0 : Int), 1],
        ((vaultPlay.run [.begin]).perform (.chooseIndex index)).shown.map Block.id = [none, some "vault"] ∧
        (vaultGraph.find? (some "vault")).all (fun n =>
          n.satisfiedBy ((vaultPlay.run [.begin]).viewed (.chooseIndex index))) = false := by
  refine ⟨rfl, ?_⟩
  decide +kernel

/-- Knocking shows the vault although it may not be shown: a branch leads there. -/
theorem vaultPlay_shows_written : ∃ n, (vaultPlay.run [.begin]).displayed (.chooseIndex 1) = some n ∧
    n.satisfiedBy ((vaultPlay.run [.begin]).viewed (.chooseIndex 1)) = false ∧
    ∃ choice, (vaultPlay.run [.begin]).taken (.chooseIndex 1) = some choice ∧
      (vaultGraph.find? choice.next = some n ∨ nonEmpty? choice.next = none ∧
        ∃ source : Node, ∃ branch ∈ source.branches, vaultGraph.find? branch.next = some n) := by
  have hshut : ((vaultPlay.run [.begin]).displayed (.chooseIndex 1)).any (fun n =>
      !n.satisfiedBy ((vaultPlay.run [.begin]).viewed (.chooseIndex 1))) = true := by
    decide +kernel
  obtain ⟨n, hn, hgated⟩ := (Option.any_eq_true _ _).mp hshut
  have hfalse : n.satisfiedBy ((vaultPlay.run [.begin]).viewed (.chooseIndex 1)) = false := by
    simpa using hgated
  have hgraph : (vaultPlay.run [.begin]).script.graph = vaultGraph := by
    rw [run_script]
    rfl
  refine ⟨n, hn, hfalse, ?_⟩
  obtain ⟨_, hall⟩ := displayed_satisfiedBy_or_written (vaultPlay.run [.begin]) (.chooseIndex 1)
  rw [hgraph] at hall
  rcases hall n hn with hmay | ⟨choice, htaken, hown | ⟨hnone, _, source, _, _, branch, hbranch, _, hm⟩⟩
  · exact absurd (hmay.symm.trans hfalse) Bool.false_ne_true.symm
  · exact ⟨choice, htaken, .inl hown⟩
  · exact ⟨choice, htaken, .inr ⟨hnone, source, branch, hbranch, hm⟩⟩

end Play
end BranchingStory
