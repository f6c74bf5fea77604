import BranchingStory.Proofs.Consistency
import BranchingStory.Proofs.DisplayedNodes
import Mathlib.Data.List.Chain
import Mathlib.Data.List.Perm.Subperm

/-!
# How a play gets on

Between two nodes of the graph that a play displays one after the other, the links of the graph lead from the
first to the second. The reason is that the block of the present node is always in the history, being the last
that was added to it. Advancing therefore never stays where it is: if the present node may still be shown, it
steps past it, and if not, it has left it by searching on.

So the displayed nodes form a path along the links. Without a cycle no node comes twice, and a play is over
after as many moves as there are nodes, and one more. With cycles a node may come back while it is still in
the history, since advancing steps past what is in the history only once.
-/

namespace BranchingStory

/-- A reaction to a choice of the graph goes by this id. -/
def Graph.Reacts (g : Graph) (id : Option String) : Prop :=
  ∃ n ∈ g.nodes, ∃ choice ∈ n.choices, ∃ reaction ∈ choice.reactions, reaction.id = id

namespace Play

/-- The nodes of the graph that some operations put on display, in order. -/
def displayedAll (p : Play) : List Operation → List Node
  | [] => []
  | operation :: operations =>
    (p.displayed operation).toList ++ (p.perform operation).play.displayedAll operations

/-- Whether an operation moves the story on: it advances while no choice is pending and the story has not
ended, or it takes a choice. -/
def movesOn (p : Play) : Operation → Bool
  | .begin | .advance => !p.history.isEnded && !p.history.waiting
  | operation => (p.taken operation).isSome

def movesMade (p : Play) : List Operation → Nat
  | [] => 0
  | operation :: operations =>
    (p.movesOn operation).toNat + (p.perform operation).play.movesMade operations

/-- The operations of a player, and the changes that the host makes to the flags. -/
def Plain (operations : List Operation) : Prop :=
  ∀ operation ∈ operations, operation.isMove = true ∨ operation.isFlags = true

variable {p : Play} {path : List Node}

@[simp] theorem movesOn_chooseIndex (index : Int) :
    p.movesOn (.chooseIndex index) = (p.choiceAt index).isSome := rfl

variable (p path) in
/-- The play has displayed the nodes of a path, and no others. -/
structure CameBy : Prop where
  room : 1 ≤ p.history.bound
  found : ∀ n ∈ path, p.script.graph.find? n.id = some n
  linked : path.IsChain p.script.graph.Ahead
  stands : ∀ here, p.node? = some here → path = [] ∧ p.history.blocks = [] ∨
    path.getLast? = some here ∧ ∃ b ∈ p.history.blocks, b.id = here.id
  blocks : ∀ b ∈ p.history.blocks,
    b.id = none ∨ (∃ n ∈ path, b.id = n.id) ∨ p.script.graph.Reacts b.id

theorem CameBy.fresh {script : Script} {world : World} (hmake : make script world none = .ok p) :
    p.CameBy [] ∧ p.script = script := by
  obtain ⟨_, hp⟩ := make_eq_ok hmake
  obtain ⟨hbound, rfl⟩ := fresh?_eq_some hp
  refine ⟨⟨?room, ?found, List.isChain_nil, ?stands, ?blocks⟩, rfl⟩
  case room =>
    show 1 ≤ script.bound.toNat
    omega
  case found =>
    intro n hn
    exact absurd hn List.not_mem_nil
  case stands =>
    intro here hhere
    exact .inl ⟨rfl, rfl⟩
  case blocks =>
    intro b hb
    exact absurd hb List.not_mem_nil

/-! ## What is shown next lies ahead -/

/-- Advancing shows a node ahead of the present one: the present node is in the history, so it is stepped
past unless the search has left it already. -/
theorem CameBy.ahead_of_upcoming {n : Node} (h : p.CameBy path) (hn : p.upcoming = some n) :
    ∀ last, path.getLast? = some last → p.script.graph.Ahead last n := by
  intro last hlast
  obtain ⟨here, first, hhere, hfirst, hcases⟩ := upcoming_cases hn
  have hfind : p.script.graph.find? here.id = some here := Graph.find?_id hhere
  rcases h.stands here hhere with ⟨rfl, _⟩ | ⟨hgetLast, hblock⟩
  · exact absurd hlast.symm (Option.some_ne_none last)
  obtain rfl : here = last := Option.some.inj (hgetLast.symm.trans hlast)
  have hreach : Relation.ReflTransGen p.script.graph.Link here first :=
    Graph.reflTransGen_of_renderable hfind hfirst
  rcases hcases with ⟨hshown, rfl⟩ | ⟨_, hbehind⟩
  · rcases Relation.reflTransGen_iff_eq_or_transGen.mp hreach with rfl | hahead
    · rw [(History.hasShown_iff_of_find? hfind).mpr hblock] at hshown
      exact absurd hshown.symm Bool.false_ne_true
    · exact hahead
  · have hfound : p.script.graph.find? first.id = some first := by
      rcases Graph.find?_of_renderable hfirst with rfl | hfound
      · exact hfind
      · exact hfound
    exact Relation.TransGen.trans_right hreach (Graph.ahead_of_behind hfound hbehind)

theorem ahead_of_chosenNode {prompt n : Node} {choice : Choice} (hprompt : p.node? = some prompt)
    (hchoice : choice ∈ prompt.choices) (hn : p.chosenNode choice = some n) :
    p.script.graph.Ahead prompt n := by
  have hfind : p.script.graph.find? prompt.id = some prompt := Graph.find?_id hprompt
  rcases chosenNode_cases hn with hown | ⟨_, here, hhere, hcomes⟩
  · exact .single (Graph.link_choice hfind hchoice hown)
  · obtain rfl : prompt = here := Option.some.inj (hprompt.symm.trans hhere)
    exact hcomes.ahead hfind

/-! ## Steps -/

theorem eq_of_node?_rendered {n here : Node} (hn : p.upcoming = some n)
    (hhere : (p.rendered n).node? = some here) : here = n := by
  have hfind := find?_of_upcoming hn
  rw [node?, Play.rendered, History.follow_current] at hhere
  cases hstands : n.standing with
  | none => simp [hstands] at hhere
  | some m =>
    obtain rfl := Node.standing_eq_some hstands
    rw [hstands, Option.bind_some] at hhere
    exact Option.some.inj (hhere.symm.trans hfind)

theorem chosenNode_of_node? {choice : Choice} {here : Node} (h : (p.chosen choice).node? = some here) :
    p.chosenNode choice = some here := by
  rw [node?, chosen, History.follow_current] at h
  cases hn : p.chosenNode choice with
  | none => simp [hn] at h
  | some n =>
    rw [hn, Option.bind_some] at h
    have hfind : p.script.graph.find? n.id = some n := Graph.find?_id hn
    exact hfind.symm.trans h

theorem reacts_of_mem_spokenBlocks {prompt : Node} {choice : Choice} {b : Block}
    (hprompt : p.node? = some prompt) (hchoice : choice ∈ prompt.choices) (hb : b ∈ p.spokenBlocks choice) :
    b.id = none ∨ p.script.graph.Reacts b.id := by
  rcases id_of_mem_spokenBlocks hb with hnone | ⟨reaction, hreaction, hid⟩
  · exact .inl hnone
  · exact .inr ⟨prompt, Graph.mem_of_find? hprompt, choice, hchoice, reaction, hreaction, hid.symm⟩

theorem CameBy.stay {q : Play} (h : p.CameBy path) (hscript : q.script = p.script)
    (hbound : q.history.bound = p.history.bound)
    (hstands : ∀ here, q.node? = some here → p.node? = some here ∧ q.history.blocks = p.history.blocks)
    (hblocks : ∀ b ∈ q.history.blocks,
      b ∈ p.history.blocks ∨ b.id = none ∨ p.script.graph.Reacts b.id) : q.CameBy path := by
  refine ⟨hbound ▸ h.room, ?found, ?linked, ?stands, ?blocks⟩
  case found =>
    rw [hscript]
    exact h.found
  case linked =>
    rw [hscript]
    exact h.linked
  case stands =>
    intro here hhere
    obtain ⟨hnode, heq⟩ := hstands here hhere
    rw [heq]
    exact h.stands here hnode
  case blocks =>
    intro b hb
    rw [hscript]
    rcases hblocks b hb with hold | hnone | hreacts
    · exact h.blocks b hold
    · exact .inl hnone
    · exact .inr (.inr hreacts)

theorem CameBy.further {q : Play} {n : Node} {old : List Block} {last : Block} (h : p.CameBy path)
    (hscript : q.script = p.script) (hbound : q.history.bound = p.history.bound)
    (hfind : p.script.graph.find? n.id = some n)
    (hahead : ∀ before, path.getLast? = some before → p.script.graph.Ahead before n)
    (hstands : ∀ here, q.node? = some here → here = n)
    (hblocks : q.history.blocks = latest p.history.bound (old ++ [last])) (hlast : last.id = n.id)
    (hold : ∀ b ∈ old, b ∈ p.history.blocks ∨ b.id = none ∨ p.script.graph.Reacts b.id) :
    q.CameBy (path ++ [n]) := by
  refine ⟨hbound ▸ h.room, ?found, ?linked, ?stands, ?blocks⟩
  case found =>
    intro m hm
    rw [hscript]
    rcases List.mem_append.mp hm with hm | hm
    · exact h.found m hm
    · exact List.mem_singleton.mp hm ▸ hfind
  case linked =>
    rw [hscript]
    apply h.linked.append (List.isChain_singleton n)
    intro before hbefore m hm
    obtain rfl : n = m := Option.some.inj hm
    exact hahead before hbefore
  case stands =>
    intro here hhere
    obtain rfl := hstands here hhere
    exact .inr ⟨List.getLast?_concat, last, hblocks ▸ mem_latest_concat h.room, hlast⟩
  case blocks =>
    intro b hb
    rw [hscript]
    rw [hblocks] at hb
    rcases List.mem_append.mp (mem_of_mem_latest hb) with hb | hb
    · rcases hold b hb with hb | hnone | hreacts
      · rcases h.blocks b hb with hnone | ⟨m, hm, hid⟩ | hreacts
        · exact .inl hnone
        · exact .inr (.inl ⟨m, List.mem_append_left _ hm, hid⟩)
        · exact .inr (.inr hreacts)
      · exact .inl hnone
      · exact .inr (.inr hreacts)
    · obtain rfl : b = last := List.mem_singleton.mp hb
      exact .inr (.inl ⟨n, List.mem_append_right _ List.mem_cons_self, hlast⟩)

theorem CameBy.atEnd (h : p.CameBy path) : p.atEnd.CameBy path := by
  refine h.stay rfl rfl ?_ fun b hb => .inl hb
  intro here hhere
  exact absurd hhere.symm (Option.some_ne_none here)

theorem CameBy.rendered {n : Node} (h : p.CameBy path) (hn : p.upcoming = some n) :
    (p.rendered n).CameBy (path ++ [n]) := by
  have hfind : p.script.graph.find? n.id = some n := find?_of_upcoming hn
  have hbound : (p.rendered n).history.bound = p.history.bound := by
    rw [Play.rendered, History.follow_bound, History.append_bound]
  have hblocks : (p.rendered n).history.blocks =
      latest p.history.bound (p.history.blocks ++ [p.upcomingBlock n]) := by
    rw [Play.rendered, History.follow_blocks, History.append_blocks]
  refine h.further rfl hbound hfind (h.ahead_of_upcoming hn) ?_ hblocks (blockIn_id _ n) fun b hb => .inl hb
  exact fun here hhere => eq_of_node?_rendered hn hhere

theorem CameBy.chosen {prompt : Node} {choice : Choice} (h : p.CameBy path)
    (hprompt : p.node? = some prompt) (hchoice : choice ∈ prompt.choices) :
    (p.chosen choice).CameBy (path ++ (p.chosenNode choice).toList) := by
  have hblocks : (p.chosen choice).history.blocks =
      latest p.history.bound (p.answered.blocks ++ p.chosenBlocks choice) := by
    rw [Play.chosen, History.follow_blocks, History.append_blocks, answered_bound]
  have hbound : (p.chosen choice).history.bound = p.history.bound := by
    rw [Play.chosen, History.follow_bound, History.append_bound, answered_bound]
  have hold : ∀ b ∈ p.answered.blocks ++ p.spokenBlocks choice,
      b ∈ p.history.blocks ∨ b.id = none ∨ p.script.graph.Reacts b.id := by
    intro b hb
    rcases List.mem_append.mp hb with hb | hb
    · exact .inl (mem_of_mem_answered hb)
    · exact .inr (reacts_of_mem_spokenBlocks hprompt hchoice hb)
  cases hn : p.chosenNode choice with
  | none =>
    rw [chosenBlocks, hn, Option.toList_none, List.map_nil, List.append_nil] at hblocks
    rw [Option.toList_none, List.append_nil]
    refine h.stay rfl hbound ?_ ?_
    · intro here hhere
      exact absurd (hn.symm.trans (chosenNode_of_node? hhere)) (Option.some_ne_none here).symm
    · intro b hb
      exact hold b (mem_of_mem_latest (hblocks ▸ hb))
  | some n =>
    rw [chosenBlocks, hn, Option.toList_some, List.map_singleton, ← List.append_assoc] at hblocks
    refine h.further rfl hbound (Graph.find?_id hn) ?ahead ?stands hblocks (blockIn_id _ n) hold
    case ahead =>
      intro before hbefore
      rcases h.stands prompt hprompt with ⟨rfl, _⟩ | ⟨hgetLast, _⟩
      · exact absurd hbefore.symm (Option.some_ne_none before)
      · obtain rfl : prompt = before := Option.some.inj (hgetLast.symm.trans hbefore)
        exact ahead_of_chosenNode hprompt hchoice hn
    case stands =>
      intro here hhere
      exact Option.some.inj ((chosenNode_of_node? hhere).symm.trans hn)

theorem CameBy.advance (h : p.CameBy path) : p.advance.play.CameBy (path ++ p.upcoming.toList) := by
  cases hw : p.history.waiting with
  | true =>
    rw [advance_of_waiting hw, upcoming_of_waiting hw, Option.toList_none, List.append_nil]
    exact h
  | false =>
    cases hn : p.upcoming with
    | none =>
      rw [(advance_of_none hw hn).1, Option.toList_none, List.append_nil]
      exact h.atEnd
    | some n =>
      rw [(advance_of_upcoming hn).1]
      exact h.rendered hn

/-- Every operation of a player, and every change of flags, takes a play further along the links or leaves it
where it is. -/
theorem CameBy.perform {operation : Operation} (h : p.CameBy path)
    (hoperation : operation.isMove = true ∨ operation.isFlags = true) :
    (p.perform operation).play.CameBy (path ++ (p.displayed operation).toList) := by
  cases operation with
  | begin =>
    have hadvance := h.advance
    rw [Play.perform, begin_eq.1]
    exact ⟨hadvance.room, hadvance.found, hadvance.linked, hadvance.stands, hadvance.blocks⟩
  | advance => exact h.advance
  | chooseIndex index =>
    cases hchoice : p.choiceAt index with
    | some choice =>
      obtain ⟨prompt, hprompt, hmem⟩ := exists_node?_of_choiceAt hchoice
      have hplay := (choose_of_waiting choice (waiting_of_choiceAt hchoice)).1
      rw [Play.perform, chooseIndex_of_some hchoice, hplay, displayed_chooseIndex, hchoice, Option.bind_some]
      exact h.chosen hprompt hmem
    | none =>
      obtain ⟨fault, hrefuse, _⟩ := chooseIndex_of_none hchoice
      rw [Play.perform, hrefuse, displayed_chooseIndex, hchoice, Option.bind_none, Option.toList_none,
        List.append_nil]
      exact h
  | flags held =>
    have hnone : p.displayed (.flags held) = none := rfl
    rw [hnone, Option.toList_none, List.append_nil]
    exact ⟨h.room, h.found, h.linked, h.stands, h.blocks⟩
  | choose _ | startAmbience | reset | restore _ => simp [Operation.isMove, Operation.isFlags] at hoperation

theorem CameBy.run {operations : List Operation} (h : p.CameBy path) (hoperations : Plain operations) :
    (p.run operations).CameBy (path ++ p.displayedAll operations) := by
  induction operations generalizing p path with
  | nil =>
    rw [run_nil, displayedAll, List.append_nil]
    exact h
  | cons operation operations ih =>
    rw [run_cons, displayedAll, ← List.append_assoc]
    apply ih
    · exact h.perform (hoperations operation List.mem_cons_self)
    · intro other hother
      exact hoperations other (List.mem_cons_of_mem _ hother)

/-! ## Paths -/

theorem CameBy.pairwise (h : p.CameBy path) : path.Pairwise p.script.graph.Ahead := h.linked.pairwise

theorem CameBy.reflTransGen_last {n last : Node} (h : p.CameBy path) (hn : n ∈ path)
    (hlast : path.getLast? = some last) : Relation.ReflTransGen p.script.graph.Link n last := by
  obtain ⟨earlier, rfl⟩ := List.getLast?_eq_some_iff.mp hlast
  rcases List.mem_append.mp hn with hn | hn
  · exact ((List.pairwise_append.mp h.pairwise).2.2 n hn last List.mem_cons_self).to_reflTransGen
  · exact List.mem_singleton.mp hn ▸ .refl

theorem CameBy.nodup (h : p.CameBy path) (hacyclic : p.script.graph.Acyclic) :
    (path.map Node.id).Nodup := by
  refine List.pairwise_map.mpr (h.pairwise.imp_of_mem ?_)
  intro n m hn hm hahead heq
  have hsame : some n = some m := by
    rw [← h.found n hn, ← h.found m hm, heq]
  exact hacyclic m (Option.some.inj hsame ▸ hahead)

theorem CameBy.length_le (h : p.CameBy path) (hacyclic : p.script.graph.Acyclic) :
    path.length ≤ p.script.graph.size := by
  have hsubset : path.map Node.id ⊆ p.script.graph.ids.map some := by
    intro id hid
    obtain ⟨n, hn, rfl⟩ := List.mem_map.mp hid
    exact Graph.mem_ids_of_find? (h.found n hn)
  have hlength := (List.subperm_of_subset (h.nodup hacyclic) hsubset).length_le
  rwa [List.length_map, List.length_map] at hlength

/-- The upcoming node lies ahead of itself if it has been displayed before. So if something of its id is in
the history, it is the node itself or a reaction. -/
theorem CameBy.ahead_self_or_reacts {n : Node} {old : Block} (h : p.CameBy path) (hn : p.upcoming = some n)
    (hold : old ∈ p.history.blocks) (hid : old.id = n.id) :
    p.script.graph.Ahead n n ∨ p.script.graph.Reacts n.id := by
  have hfind := find?_of_upcoming hn
  rcases h.blocks old hold with hnone | ⟨m, hm, hmid⟩ | hreacts
  · rw [← hid, hnone] at hfind
    exact absurd hfind.symm (Option.some_ne_none n)
  · -- The path leads from the node to the position, and from there the search leads on to it.
    left
    have hsame : some n = some m := by
      rw [← hfind, ← h.found m hm, ← hmid, hid]
    obtain rfl : n = m := Option.some.inj hsame
    obtain ⟨last, hlast⟩ := Option.ne_none_iff_exists'.mp
      (List.getLast?_eq_none_iff.not.mpr (List.ne_nil_of_mem hm))
    exact Relation.TransGen.trans_right (h.reflTransGen_last hm hlast) (h.ahead_of_upcoming hn last hlast)
  · exact .inr (hid ▸ hreacts)

/-! ## Counting moves -/

theorem isEnded_of_node? {n : Node} (hn : p.node? = some n) : p.history.isEnded = false := by
  cases hcurrent : p.history.current with
  | none => simp [hcurrent] at hn
  | some id => rw [History.isEnded, hcurrent, Option.isNone_some]

theorem advance_movesOn_le : (p.movesOn .advance).toNat + p.history.isEnded.toNat ≤
    p.upcoming.toList.length + p.advance.play.history.isEnded.toNat := by
  cases hw : p.history.waiting with
  | true =>
    rw [advance_of_waiting hw, movesOn, hw, Bool.not_true, Bool.and_false]
    exact Nat.add_le_add_right (Nat.zero_le _) _
  | false =>
    cases hn : p.upcoming with
    | none =>
      have hended : p.advance.play.history.isEnded = true := by
        rw [(advance_of_none hw hn).1]
        rfl
      rw [hended, movesOn, hw]
      cases p.history.isEnded <;> decide
    | some n =>
      obtain ⟨here, hhere, _⟩ := exists_node?_of_upcoming hn
      rw [isEnded_of_node? hhere, movesOn, isEnded_of_node? hhere, hw, Option.toList_some, List.length_singleton]
      exact Nat.le_add_right 1 _

theorem movesOn_le {operation : Operation}
    (hoperation : operation.isMove = true ∨ operation.isFlags = true) :
    (p.movesOn operation).toNat + p.history.isEnded.toNat ≤
      (p.displayed operation).toList.length + (p.perform operation).play.history.isEnded.toNat := by
  cases operation with
  | begin =>
    rw [perform, begin_eq.1]
    exact advance_movesOn_le
  | advance => exact advance_movesOn_le
  | chooseIndex index =>
    cases hchoice : p.choiceAt index with
    | some choice =>
      obtain ⟨prompt, hprompt, _⟩ := exists_node?_of_choiceAt hchoice
      have hplay := (choose_of_waiting choice (waiting_of_choiceAt hchoice)).1
      rw [perform, chooseIndex_of_some hchoice, hplay, movesOn_chooseIndex, displayed_chooseIndex,
        hchoice, Option.bind_some, isEnded_of_node? hprompt]
      cases hn : p.chosenNode choice with
      | none => simp [chosen, hn, History.isEnded]
      | some n => exact Nat.le_add_right 1 _
    | none =>
      obtain ⟨fault, hrefuse, _⟩ := chooseIndex_of_none hchoice
      rw [perform, hrefuse, movesOn_chooseIndex, displayed_chooseIndex, hchoice]
      exact Nat.le_refl _
  | flags held => exact Nat.le_refl _
  | choose _ | startAmbience | reset | restore _ => simp [Operation.isMove, Operation.isFlags] at hoperation

/-- Each move of a run displays a node, except for one that comes to the end. -/
theorem movesMade_le {operations : List Operation} (hoperations : Plain operations) :
    p.movesMade operations + p.history.isEnded.toNat ≤
      (p.displayedAll operations).length + (p.run operations).history.isEnded.toNat := by
  induction operations generalizing p with
  | nil => exact Nat.le_refl _
  | cons operation operations ih =>
    have hstep := movesOn_le (p := p) (hoperations operation List.mem_cons_self)
    have hrest := ih (p := (p.perform operation).play) fun other hother =>
      hoperations other (List.mem_cons_of_mem _ hother)
    rw [movesMade, displayedAll, run_cons, List.length_append]
    omega

theorem isEnded_run {operations : List Operation} (hoperations : Plain operations)
    (hended : p.history.isEnded = true) : (p.run operations).history.isEnded = true := by
  refine run_induction (P := fun q => q.history.isEnded = true) hended fun q operation hmem hq => ?_
  have hcurrent : q.history.current = none := Option.isNone_iff_eq_none.mp hq
  have hadvance : q.advance = q.idle := by
    unfold Play.advance
    rw [hcurrent]
  cases operation with
  | begin =>
    rw [perform, begin_eq.1, hadvance]
    exact hq
  | advance =>
    rw [perform, hadvance]
    exact hq
  | chooseIndex index =>
    cases hchoice : q.choiceAt index with
    | some choice =>
      obtain ⟨prompt, hprompt, _⟩ := exists_node?_of_choiceAt hchoice
      exact absurd (isEnded_of_node? hprompt ▸ hq) Bool.false_ne_true
    | none =>
      obtain ⟨fault, hrefuse, _⟩ := chooseIndex_of_none hchoice
      rw [perform, hrefuse]
      exact hq
  | flags held => exact hq
  | choose _ | startAmbience | reset | restore _ =>
    exact absurd (hoperations _ hmem) (by simp [Operation.isMove, Operation.isFlags])

/-! ## Stories without cycles, and with them -/

/-- A story without cycles ends. Whatever a player does and whatever flags the host sets, each node that is
displayed by its block lies ahead of the one before, no id comes twice, and there are never more moves than
nodes and one more. After so many moves the story is over, and it stays over. -/
theorem run_ends_of_acyclic {script : Script} {world : World} {p : Play} {operations : List Operation}
    (hmake : make script world none = .ok p) (hacyclic : script.graph.Acyclic)
    (hoperations : Plain operations) :
    (∀ earlier operation, ((p.run earlier).perform operation).shown = (p.run earlier).turnBlocks operation) ∧
    (p.displayedAll operations).IsChain script.graph.Ahead ∧
    ((p.displayedAll operations).map Node.id).Nodup ∧
    p.movesMade operations ≤ script.graph.size + 1 ∧
    (script.graph.size + 1 ≤ p.movesMade operations → ∀ more, Plain more →
      ((p.run operations).run more).history.isEnded = true) := by
  obtain ⟨hfresh, rfl⟩ := CameBy.fresh hmake
  have hpath := hfresh.run hoperations
  rw [List.nil_append] at hpath
  have hgraph : (p.run operations).script.graph = p.script.graph := by rw [run_script]
  rw [← hgraph] at hacyclic ⊢
  have hlength := hpath.length_le hacyclic
  have hmoves := movesMade_le (p := p) hoperations
  have hatMost : (p.run operations).history.isEnded.toNat ≤ 1 := Bool.toNat_le _
  refine ⟨?_, hpath.linked, hpath.nodup hacyclic, by omega, ?_⟩
  · intro earlier operation
    exact perform_shown operation
  intro hmade more hmore
  have hended : (p.run operations).history.isEnded.toNat = 1 := by omega
  exact isEnded_run hmore (Bool.toNat_eq_one.mp hended)

/-- A prompt behind a node whose effects shut it behind itself, with a reaction that goes by the id of the
end. -/
def gateGraph : Graph :=
  { nodes :=
      [{ id := some "gate", kind := .singleParagraph, conditions := [("day", .bool true)],
         effects := [("day", .bool false)], next := some "ask" },
       { id := some "ask", kind := .dialogueChoice, branches := [{ next := some "lost" }],
         choices :=
           [{ text := "On", next := some "end",
              reactions := [{ id := some "end", kind := .singleParagraph }] }] },
       { id := some "end", kind := .singleParagraph }] }

def gatePlay : Play :=
  { script := { graph := gateGraph, bound := 1 }
    history := ⟨some "gate", [], false, 1⟩
    world := { flags := [("day", .bool true)], items := { kind := .items }, notes := { kind := .notes } } }

def gateRank (n : Node) : Nat := [some "gate", some "ask", some "end"].idxOf n.id

def gateMoves : List Operation :=
  [.advance, .advance, .flags [], .chooseIndex 0, .chooseIndex 0, .advance]

theorem gatePlay_run_ends :
    make gatePlay.script gatePlay.world none = .ok gatePlay ∧ gateGraph.Acyclic ∧ Plain gateMoves ∧
      gatePlay.movesMade gateMoves = gateGraph.size + 1 ∧
      ((gatePlay.run gateMoves).run [.begin, .flags []]).history.isEnded = true := by
  have hmake : make gatePlay.script gatePlay.world none = .ok gatePlay := rfl
  have hacyclic : gateGraph.Acyclic := Graph.acyclic_of_rank gateRank (by decide)
  have hoperations : Plain gateMoves := by simp [gateMoves, Plain, Operation.isMove, Operation.isFlags]
  have hmore : Plain [.begin, .flags []] := by simp [Plain, Operation.isMove, Operation.isFlags]
  have hmade : gatePlay.movesMade gateMoves = gateGraph.size + 1 := by decide +kernel
  obtain ⟨_, _, _, _, hends⟩ := run_ends_of_acyclic hmake hacyclic hoperations
  exact ⟨hmake, hacyclic, hoperations, hmade, hends (Nat.le_of_eq hmade.symm) _ hmore⟩

/-- Advancing shows a node that is still in the history only by stepping past. The node that is found from
the position is in the history itself, and the one that is shown is found behind it. The graph leads from
that one back to itself, or a reaction goes by its id. -/
theorem advance_shows_again {script : Script} {world : World} {p : Play} {operations : List Operation}
    {b : Block} (hmake : make script world none = .ok p) (hoperations : Plain operations)
    (hb : b ∈ ((p.run operations).perform .advance).shown)
    (hagain : ∃ old ∈ (p.run operations).history.blocks, old.id = b.id) :
    ∃ here first n, (p.run operations).node? = some here ∧
      (script.graph.renderableOf (p.run operations).world.flags (some here)).value = some first ∧
      (p.run operations).history.hasShown first.id = true ∧
      (script.graph.renderableOf (p.run operations).world.flags
        (script.graph.find?
          (script.graph.nextOf (p.run operations).world.flags (some first)).value)).value = some n ∧
      b = (p.run operations).upcomingBlock n ∧
      (script.graph.Ahead n n ∨ script.graph.Reacts n.id) := by
  obtain ⟨hfresh, rfl⟩ := CameBy.fresh hmake
  have hpath := hfresh.run hoperations
  rw [List.nil_append] at hpath
  have hgraph : (p.run operations).script.graph = p.script.graph := by rw [run_script]
  rw [← hgraph]
  generalize p.run operations = q at *
  obtain ⟨n, hn, rfl⟩ : ∃ n, q.upcoming = some n ∧ b = q.upcomingBlock n := by
    cases hn : q.upcoming with
    | none => simp [perform, advance_shown, hn] at hb
    | some n =>
      rw [perform, (advance_of_upcoming hn).2.1] at hb
      exact ⟨n, rfl, List.mem_singleton.mp hb⟩
  obtain ⟨old, hold, hid⟩ := hagain
  rw [upcomingBlock, blockIn_id] at hid
  have hreason := hpath.ahead_self_or_reacts hn hold hid
  obtain ⟨here, first, hhere, hfirst, ⟨hshown, rfl⟩ | ⟨hshown, hbehind⟩⟩ := upcoming_cases hn
  · rw [(History.hasShown_iff_of_find? (find?_of_upcoming hn)).mpr ⟨old, hold, hid⟩] at hshown
    exact absurd hshown.symm Bool.false_ne_true
  · exact ⟨here, first, n, hhere, hfirst, hshown, hbehind, rfl, hreason⟩

def ringGraph : Graph :=
  { nodes :=
      [{ id := some "day", kind := .singleParagraph, next := some "night" },
       { id := some "night", kind := .singleParagraph, next := some "day" }] }

def ringPlay : Play :=
  { script := { graph := ringGraph }
    history := ⟨some "day", [], false, 10⟩
    world := { items := { kind := .items }, notes := { kind := .notes } } }

/-- The third time, advancing shows the day again that is in the history still. -/
theorem ringPlay_shows_day_again :
    make ringPlay.script ringPlay.world none = .ok ringPlay ∧
      (ringPlay.run [.advance, .advance]).history.blocks.map Block.id = [some "day", some "night"] ∧
      ((ringPlay.run [.advance, .advance]).perform .advance).shown.map Block.id = [some "day"] := by
  refine ⟨rfl, ?_, ?_⟩ <;> decide +kernel

theorem ringPlay_shows_again :
    make ringPlay.script ringPlay.world none = .ok ringPlay ∧ Plain [.advance, .advance] ∧
      ∃ b ∈ ((ringPlay.run [.advance, .advance]).perform .advance).shown,
        (∃ old ∈ (ringPlay.run [.advance, .advance]).history.blocks, old.id = b.id) ∧
        ∃ n, b = (ringPlay.run [.advance, .advance]).upcomingBlock n ∧
          (ringGraph.Ahead n n ∨ ringGraph.Reacts n.id) := by
  have hmake : make ringPlay.script ringPlay.world none = .ok ringPlay := rfl
  have hoperations : Plain [.advance, .advance] := by simp [Plain, Operation.isMove]
  have hshown : some "day" ∈ ((ringPlay.run [.advance, .advance]).perform .advance).shown.map Block.id := by
    decide +kernel
  have hkept : some "day" ∈ (ringPlay.run [.advance, .advance]).history.blocks.map Block.id := by
    decide +kernel
  obtain ⟨b, hb, hid⟩ := List.mem_map.mp hshown
  obtain ⟨old, hold, hday⟩ := List.mem_map.mp hkept
  have hagain : ∃ old ∈ (ringPlay.run [.advance, .advance]).history.blocks, old.id = b.id :=
    ⟨old, hold, hday.trans hid.symm⟩
  obtain ⟨_, _, n, _, _, _, _, hblock, hreason⟩ := advance_shows_again hmake hoperations hb hagain
  exact ⟨hmake, hoperations, b, hb, hagain, n, hblock, hreason⟩

end Play
end BranchingStory
