import BranchingStory.Proofs.DisplayLog
import BranchingStory.Proofs.PendingPrompt

/-!
# Plays with less room

How many blocks a history keeps is meant for the screen. A play with less room is the same play with its
history cut down, and its moves come to the same: what they add, they add at the end. There are two exceptions,
where a move asks for a block by its id that only the longer history still holds. Advancing from a node whose
own conditions fail searches on, and the node that it finds may be on display there. And an answer takes out
the first block with the id of its prompt; that may be an older one if a reaction goes by the same id. As long
as neither happens, room is a matter of display.
-/

namespace BranchingStory

namespace History

def cut (h : History) (bound : Nat) : History := { h with blocks := latest bound h.blocks, bound }

variable {h : History} {bound : Nat}

theorem cut_follow (next : Option Node) : (h.follow next).cut bound = (h.cut bound).follow next := by
  cases next <;> rfl

theorem cut_append (hle : bound ≤ h.bound) (blocks : List Block) :
    (h.append blocks).cut bound = (h.cut bound).append blocks := by
  simp only [cut, append, latest_latest hle, latest_append_latest]

theorem hasShown_of_cut {id : Option String} (hshown : (h.cut bound).hasShown id = true) :
    h.hasShown id = true := by
  obtain ⟨hsome, hne, b, hb, hid⟩ := hasShown_iff.mp hshown
  exact hasShown_iff.mpr ⟨hsome, hne, b, mem_of_mem_latest hb, hid⟩

def lost (h : History) (bound : Nat) : List Block := h.blocks.take (h.blocks.length - bound)

theorem lost_append_cut : h.lost bound ++ (h.cut bound).blocks = h.blocks := List.take_append_drop _ _

/-- Taking a block out by its id and cutting down may be done in either order before blocks are added, if none
of the blocks that would be lost has this id. -/
theorem cut_removeFirst_append (hle : bound ≤ h.bound) {id : Option String}
    (hkept : ∀ b ∈ h.lost bound, b.id ≠ id) {blocks : List Block} (hblocks : blocks ≠ []) :
    ((h.removeFirst id).append blocks).cut bound = ((h.cut bound).removeFirst id).append blocks := by
  unfold removeFirst
  cases hid : nonEmpty? id with
  | none => exact cut_append hle blocks
  | some s =>
    obtain ⟨rfl, _⟩ := nonEmpty?_eq_some.mp hid
    have hothers : ∀ b ∈ h.lost bound, ¬ (b.id == some s) = true :=
      fun b hb heq => hkept b hb (beq_iff_eq.mp heq)
    have herase : h.blocks.eraseP (fun b => b.id == some s) =
        h.lost bound ++ (h.cut bound).blocks.eraseP (fun b => b.id == some s) := by
      rw [← List.eraseP_append_right _ hothers, lost_append_cut]
    have hlatest : latest bound (h.lost bound ++
        ((h.cut bound).blocks.eraseP (fun b => b.id == some s) ++ blocks)) =
          latest bound ((h.cut bound).blocks.eraseP (fun b => b.id == some s) ++ blocks) := by
      by_cases hshort : h.blocks.length ≤ bound
      · have hnone : h.lost bound = [] := by rw [lost, Nat.sub_eq_zero_of_le hshort, List.take_zero]
        rw [hnone, List.nil_append]
      · -- A full history that loses one block to the answer gets at least one new block.
        refine latest_append_of_le _ ?_
        have hfull : (h.cut bound).blocks.length = bound := by
          rw [cut, latest, List.length_drop]
          omega
        have hnew : 1 ≤ blocks.length := List.length_pos_iff.mpr hblocks
        have hlength := List.length_eraseP (p := fun b : Block => b.id == some s) (l := (h.cut bound).blocks)
        rw [List.length_append, hlength, hfull]
        split <;> omega
    simp only [cut, append, latest_latest hle, herase, List.append_assoc]
    exact congrArg (History.mk h.current · h.waiting bound) hlatest

end History

namespace Graph

theorem renderableOf_of_satisfiedBy {g : Graph} {flags : Flags} {n : Node} (h : n.satisfiedBy flags = true) :
    (g.renderableOf flags (some n)).value = some n := by
  rw [renderableOf, renderable, if_pos h]
  rfl

end Graph

namespace Play

def cut (p : Play) (bound : Int) : Play :=
  { p with script := { p.script with bound }, history := p.history.cut bound.toNat }

variable {p : Play} {bound : Int}

/-! ## Moves with less room -/

@[simp] theorem cut_node? : (p.cut bound).node? = p.node? := rfl

theorem cut_atEnd : (p.cut bound).atEnd = p.atEnd.cut bound := rfl

theorem cut_rendered (hle : bound.toNat ≤ p.history.bound) (n : Node) :
    (p.cut bound).rendered n = (p.rendered n).cut bound := by
  have hhistory : ((p.history.cut bound.toNat).append [p.upcomingBlock n]).follow n.standing =
      ((p.history.append [p.upcomingBlock n]).follow n.standing).cut bound.toNat := by
    rw [History.cut_follow, History.cut_append hle]
  exact congrArg (fun history => Play.mk { p.script with bound } history (p.world.apply n).value p.begun
    p.ambienceStarted) hhistory

theorem cut_advance (hle : bound.toNat ≤ p.history.bound) (heq : (p.cut bound).upcoming = p.upcoming) :
    (p.cut bound).advance.play = p.advance.play.cut bound := by
  cases hw : p.history.waiting with
  | true =>
    rw [advance_of_waiting hw, advance_of_waiting (p := p.cut bound) hw]
    rfl
  | false =>
    cases hn : p.upcoming with
    | none =>
      rw [(advance_of_none hw hn).1, (advance_of_none (p := p.cut bound) hw (heq.trans hn)).1, cut_atEnd]
    | some n =>
      rw [(advance_of_upcoming hn).1, (advance_of_upcoming (heq.trans hn)).1, cut_rendered hle]

theorem cut_chosen (choice : Choice) {prompt : Node} (hprompt : p.node? = some prompt)
    (hle : bound.toNat ≤ p.history.bound) (hkept : ∀ b ∈ p.history.lost bound.toNat, b.id ≠ prompt.id) :
    (p.cut bound).chosen choice = (p.chosen choice).cut bound := by
  have hhistory : ((p.cut bound).answered.append (p.chosenBlocks choice)).follow (p.chosenNode choice) =
      ((p.answered.append (p.chosenBlocks choice)).follow (p.chosenNode choice)).cut bound.toNat := by
    rw [History.cut_follow, answered, answered, cut_node?, hprompt]
    exact congrArg (History.follow · _) (History.cut_removeFirst_append hle hkept (chosenBlocks_ne_nil choice)).symm
  exact congrArg (fun history => Play.mk { p.script with bound } history (p.chosenWorld choice) p.begun
    p.ambienceStarted) hhistory

/-! ## Where room matters -/

/-- What an operation asks of the history that one with less room cannot tell. Without a pending choice, moving
on from a node whose own conditions fail comes to a node that is on display, but would not be with less room.
An answer goes to a prompt whose id a reaction has as well, and a block of this id would be lost. -/
def Misses (p : Play) (bound : Nat) : Operation → Prop
  | .begin | .advance =>
    p.history.waiting = false ∧ ∃ here first, p.node? = some here ∧ here.satisfiedBy p.world.flags = false ∧
      (p.script.graph.renderableOf p.world.flags (some here)).value = some first ∧
      p.history.hasShown first.id = true ∧ (p.history.cut bound).hasShown first.id = false
  | .chooseIndex index =>
    (p.choiceAt index).isSome = true ∧ ∃ prompt, p.node? = some prompt ∧ p.script.graph.Reacts prompt.id ∧
      ∃ b ∈ p.history.lost bound, b.id = prompt.id
  | _ => False

theorem Standing.hasShown_cut (hp : p.Standing False) (hroom : 1 ≤ bound) {here : Node}
    (hhere : p.node? = some here) :
    p.history.blocks = [] ∨ (p.history.cut bound.toNat).hasShown here.id = true := by
  rcases hp.stands here hhere with ⟨hempty, _⟩ | ⟨last, hlast, hshows⟩
  · exact .inl hempty
  · right
    obtain ⟨old, hblocks⟩ := List.getLast?_eq_some_iff.mp hlast
    have hmem : last ∈ (p.history.cut bound.toNat).blocks := by
      rw [History.cut, hblocks]
      exact mem_latest_concat (by omega)
    exact (History.hasShown_iff_of_find? (Graph.find?_id hhere)).mpr ⟨last, hmem, hshows.id⟩

/-- Moving on comes to the same node with less room, unless it is missed there that a node is on display. -/
theorem cut_upcoming_or_misses (hp : p.Standing False) (hroom : 1 ≤ bound) :
    (p.cut bound).upcoming = p.upcoming ∨ p.Misses bound.toNat .advance := by
  cases hw : p.history.waiting with
  | true => exact .inl ((upcoming_of_waiting (p := p.cut bound) hw).trans (upcoming_of_waiting hw).symm)
  | false =>
    cases hhere : p.node? with
    | none =>
      left
      simp [upcoming, hhere]
    | some here =>
      have hupcoming : ∀ q : Play, q.history.waiting = false → q.node? = some here →
          q.upcoming = (q.nextToShow here).value := by
        intro q hwaiting hnode
        rw [upcoming, hwaiting, hnode, if_neg Bool.false_ne_true, Option.bind_some]
      rw [hupcoming (p.cut bound) hw hhere, hupcoming p hw hhere, nextToShow_value, nextToShow_value]
      have hsame : ((p.cut bound).script.graph.renderableOf (p.cut bound).world.flags (some here)).value =
          (p.script.graph.renderableOf p.world.flags (some here)).value := rfl
      rw [hsame]
      cases hfirst : (p.script.graph.renderableOf p.world.flags (some here)).value with
      | none => exact .inl rfl
      | some first =>
        rw [Option.bind_some, Option.bind_some]
        cases hcut : (p.cut bound).history.hasShown first.id with
        | true =>
          left
          have hshown : p.history.hasShown first.id = true := History.hasShown_of_cut hcut
          rw [hshown]
          rfl
        | false =>
          cases hshown : p.history.hasShown first.id with
          | false => exact .inl rfl
          | true =>
            -- The present node itself is never missed, so the search has gone on from it.
            refine .inr ⟨hw, here, first, hhere, ?_, hfirst, hshown, hcut⟩
            by_contra hsatisfied
            have hself := Graph.renderableOf_of_satisfiedBy (g := p.script.graph) (by simpa using hsatisfied)
            obtain rfl : here = first := Option.some.inj (hself.symm.trans hfirst)
            rcases hp.hasShown_cut hroom hhere with hempty | hkept
            · obtain ⟨_, _, b, hb, _⟩ := History.hasShown_iff.mp hshown
              rw [hempty] at hb
              exact absurd hb List.not_mem_nil
            · exact absurd (hcut.symm.trans hkept) Bool.false_ne_true

/-! ## Prompts and reactions -/

/-- Of the blocks that wait for no answer, only those of reactions go by the id of a prompt. -/
def Quiet (p : Play) : Prop :=
  ∀ b ∈ p.settled p.history.blocks, ∀ n, p.script.graph.find? b.id = some n → n.isPrompt = true →
    p.script.graph.Reacts b.id

theorem Quiet.fresh {script : Script} {world : World} (hmake : make script world none = .ok p) : p.Quiet := by
  obtain ⟨_, hp⟩ := make_eq_ok hmake
  obtain ⟨_, rfl⟩ := fresh?_eq_some hp
  exact fun b hb => absurd hb List.not_mem_nil

theorem Quiet.of_not_waiting (hp : p.Quiet) (hw : p.history.waiting = false) {b : Block}
    (hb : b ∈ p.history.blocks) {n : Node} (hn : p.script.graph.find? b.id = some n) (hprompt : n.isPrompt = true) :
    p.script.graph.Reacts b.id := by
  refine hp b ?_ n hn hprompt
  rw [settled, hw]
  exact hb

theorem Quiet.atEnd (hp : p.Quiet) (hw : p.history.waiting = false) : p.atEnd.Quiet :=
  fun _ hb _ hn hprompt => hp.of_not_waiting hw hb hn hprompt

theorem Quiet.rendered (hp : p.Quiet) {n : Node} (hn : p.upcoming = some n) : (p.rendered n).Quiet := by
  have hw := waiting_of_upcoming hn
  have hwaiting : (p.rendered n).history.waiting = n.isPrompt := by
    rw [Play.rendered, History.follow_waiting, Node.standing_any_isPrompt]
  intro b hb m hm hprompt
  rw [settled, hwaiting, Play.rendered, History.follow_blocks, History.append_blocks] at hb
  cases hkind : n.isPrompt with
  | true =>
    rw [hkind, if_pos rfl] at hb
    have hold := mem_of_mem_dropLast_latest hb
    rw [List.dropLast_concat] at hold
    exact hp.of_not_waiting hw hold hm hprompt
  | false =>
    rw [hkind, if_neg Bool.false_ne_true] at hb
    rcases List.mem_append.mp (mem_of_mem_latest hb) with hb | hb
    · exact hp.of_not_waiting hw hb hm hprompt
    · -- The node itself is no prompt.
      obtain rfl := List.mem_singleton.mp hb
      rw [upcomingBlock, blockIn_id] at hm
      obtain rfl : n = m := Option.some.inj ((find?_of_upcoming hn).symm.trans hm)
      exact absurd (hkind.symm.trans hprompt) Bool.false_ne_true

theorem Standing.exists_blocks_eq (hp : p.Standing False) (hw : p.history.waiting = true) {prompt : Node}
    (hprompt : p.node? = some prompt) : ∃ old last, p.history.blocks = old ++ [last] ∧ last.id = prompt.id := by
  rcases hp.stands prompt hprompt with ⟨_, hnever⟩ | ⟨last, hlast, hshows⟩
  · exact absurd (hnever hw) not_false
  · obtain ⟨old, hblocks⟩ := List.getLast?_eq_some_iff.mp hlast
    exact ⟨old, last, hblocks, hshows.id⟩

/-- An answer takes the prompt out, unless a reaction goes by its id. -/
theorem Quiet.answered (hp : p.Quiet) (hstanding : p.Standing False) (hw : p.history.waiting = true)
    {prompt : Node} (hprompt : p.node? = some prompt) {b : Block} (hb : b ∈ p.answered.blocks) {n : Node}
    (hn : p.script.graph.find? b.id = some n) (hkind : n.isPrompt = true) : p.script.graph.Reacts b.id := by
  obtain ⟨old, last, hblocks, hid⟩ := hstanding.exists_blocks_eq hw hprompt
  have hold : ∀ other ∈ old, ∀ m, p.script.graph.find? other.id = some m → m.isPrompt = true →
      p.script.graph.Reacts other.id := by
    intro other hother m hm hmprompt
    refine hp other ?_ m hm hmprompt
    rw [settled, hw, if_pos rfl, hblocks, List.dropLast_concat]
    exact hother
  rcases List.mem_append.mp (hblocks ▸ mem_of_mem_answered hb) with hbold | hblast
  · exact hold b hbold n hn hkind
  · obtain rfl := List.mem_singleton.mp hblast
    by_cases hother : ∃ other ∈ old, other.id = b.id
    · obtain ⟨other, hmem, hsame⟩ := hother
      exact hsame ▸ hold other hmem n (hsame ▸ hn) hkind
    · -- Nothing before the prompt has its id, so it is the prompt that has been taken out.
      refine hold b ?_ n hn hkind
      obtain ⟨id, hsome⟩ : ∃ id, nonEmpty? prompt.id = some id := by
        refine Option.ne_none_iff_exists'.mp fun hnone => ?_
        rw [hid, Graph.find?_of_nonEmpty?_none hnone] at hn
        exact absurd hn.symm (Option.some_ne_none n)
      have hlast : b.id = some id := hid.trans (nonEmpty?_eq_some.mp hsome).1
      have hnone : ∀ other ∈ old, ¬ (other.id == some id) = true := by
        intro other hmem heq
        exact hother ⟨other, hmem, (beq_iff_eq.mp heq).trans hlast.symm⟩
      have hanswered : p.answered.blocks = old := by
        simp only [Play.answered, hprompt, Option.elim_some, History.removeFirst, hsome]
        rw [hblocks, List.eraseP_append_right _ hnone]
        simp [hlast]
      exact hanswered ▸ hb

theorem Quiet.chosen (hp : p.Quiet) (hstanding : p.Standing False) (hw : p.history.waiting = true)
    {prompt : Node} (hprompt : p.node? = some prompt) {choice : Choice} (hchoice : choice ∈ prompt.choices) :
    (p.chosen choice).Quiet := by
  intro b hb n hn hkind
  have hsettled : b ∈ (p.chosen choice).settled (p.answered.blocks ++ p.chosenBlocks choice) := by
    revert hb
    unfold settled
    split
    · exact fun hb => mem_of_mem_dropLast_latest (History.follow_blocks _ _ ▸ hb)
    · exact fun hb => mem_of_mem_latest (History.follow_blocks _ _ ▸ hb)
  rw [settled_chosen] at hsettled
  rcases List.mem_append.mp hsettled with hold | hnew
  · exact hp.answered hstanding hw hprompt hold hn hkind
  · rcases List.mem_append.mp hnew with hspoken | hnext
    · rcases reacts_of_mem_spokenBlocks hprompt hchoice hspoken with hnone | hreacts
      · rw [hnone] at hn
        exact absurd hn.symm (Option.some_ne_none n)
      · exact hreacts
    · -- The node that the choice leads to is settled only if it is no prompt.
      obtain ⟨next, hmem, rfl⟩ := List.mem_map.mp hnext
      obtain ⟨hleads, hquiet⟩ := List.mem_filter.mp hmem
      have hfind : p.script.graph.find? next.id = some next := Graph.find?_id (Option.mem_toList.mp hleads)
      rw [blockIn_id] at hn
      obtain rfl : next = n := Option.some.inj (hfind.symm.trans hn)
      simp [hkind] at hquiet

/-! ## Runs with less room -/

/-- What holds of a play that has come by moves only. -/
structure Moved (p : Play) : Prop where
  standing : p.Standing False
  quiet : p.Quiet
  consistent : p.history.Consistent p.script.graph

theorem Moved.fresh {script : Script} {world : World} (hmake : make script world none = .ok p) : p.Moved := by
  obtain ⟨rfl, hconsistent⟩ := make_consistent (fun h hh => absurd hh.symm (Option.some_ne_none h)) hmake
  exact ⟨.fresh hmake _, .fresh hmake, hconsistent⟩

theorem Quiet.advance (hp : p.Quiet) : p.advance.play.Quiet := by
  cases hw : p.history.waiting with
  | true =>
    rw [advance_of_waiting hw]
    exact hp
  | false =>
    cases hn : p.upcoming with
    | none =>
      rw [(advance_of_none hw hn).1]
      exact hp.atEnd hw
    | some n =>
      rw [(advance_of_upcoming hn).1]
      exact hp.rendered hn

theorem Moved.perform (hp : p.Moved) {operation : Operation} (hmove : operation.isMove = true) :
    (p.perform operation).play.Moved := by
  refine ⟨hp.standing.perform operation ?restore, ?quiet, ?consistent⟩
  case restore =>
    rintro snapshot rfl
    exact absurd hmove Bool.false_ne_true
  case consistent =>
    rw [perform_script]
    exact perform_consistent hp.consistent operation
  case quiet =>
    cases operation with
    | begin =>
      rw [Play.perform, begin_eq.1]
      exact hp.quiet.advance
    | advance => exact hp.quiet.advance
    | chooseIndex index =>
      cases hchoice : p.choiceAt index with
      | some choice =>
        obtain ⟨prompt, hprompt, hmem⟩ := exists_node?_of_choiceAt hchoice
        have hw := waiting_of_choiceAt hchoice
        rw [Play.perform, chooseIndex_of_some hchoice, (choose_of_waiting choice hw).1]
        exact hp.quiet.chosen hp.standing hw hprompt hmem
      | none =>
        obtain ⟨fault, hrefuse, _⟩ := chooseIndex_of_none hchoice
        rw [Play.perform, hrefuse]
        exact hp.quiet
    | _ => exact absurd hmove Bool.false_ne_true

theorem mem_dropLast_of_mem_lost {h : History} {bound : Nat} (hroom : 1 ≤ bound) {b : Block}
    (hb : b ∈ h.lost bound) : b ∈ h.blocks.dropLast := by
  have hle : h.blocks.length - bound ≤ h.blocks.length - 1 := by omega
  rw [History.lost, ← Nat.min_eq_left hle, ← List.take_take, ← List.dropLast_eq_take] at hb
  exact List.mem_of_mem_take hb

theorem Moved.bound_le (hp : p.Moved) (hle : bound ≤ p.script.bound) : bound.toNat ≤ p.history.bound := by
  rw [hp.standing.bound]
  omega

theorem Moved.cut_chosen_or_lost (hp : p.Moved) (hroom : 1 ≤ bound) (hle : bound ≤ p.script.bound) {index : Int}
    {choice : Choice} (hchoice : p.choiceAt index = some choice) :
    (p.cut bound).chosen choice = (p.chosen choice).cut bound ∨ p.Misses bound.toNat (.chooseIndex index) := by
  have hw := waiting_of_choiceAt hchoice
  obtain ⟨prompt, hprompt, hkind⟩ := hp.consistent.pending hw
  by_cases hlost : ∃ b ∈ p.history.lost bound.toNat, b.id = prompt.id
  · right
    refine ⟨by rw [hchoice, Option.isSome_some], prompt, hprompt, ?_, hlost⟩
    obtain ⟨b, hb, hid⟩ := hlost
    have hsettled : b ∈ p.settled p.history.blocks := by
      rw [settled, hw, if_pos rfl]
      exact mem_dropLast_of_mem_lost (by omega) hb
    have hfind : p.script.graph.find? b.id = some prompt := hid ▸ Graph.find?_id hprompt
    exact hid ▸ hp.quiet b hsettled prompt hfind hkind
  · left
    refine cut_chosen choice hprompt (hp.bound_le hle) ?_
    intro b hb hid
    exact hlost ⟨b, hb, hid⟩

theorem Moved.cut_perform_or_misses (hp : p.Moved) (hroom : 1 ≤ bound) (hle : bound ≤ p.script.bound)
    {operation : Operation} (hmove : operation.isMove = true) :
    ((p.cut bound).perform operation).play = (p.perform operation).play.cut bound ∨
      p.Misses bound.toNat operation := by
  have hbound := hp.bound_le hle
  cases operation with
  | begin =>
    rcases cut_upcoming_or_misses hp.standing hroom with heq | hmisses
    · left
      rw [Play.perform, Play.perform, begin_eq.1, begin_eq.1, cut_advance hbound heq]
      rfl
    · exact .inr hmisses
  | advance =>
    rcases cut_upcoming_or_misses hp.standing hroom with heq | hmisses
    · exact .inl (cut_advance hbound heq)
    · exact .inr hmisses
  | chooseIndex index =>
    cases hchoice : p.choiceAt index with
    | some choice =>
      have hw := waiting_of_choiceAt hchoice
      have hcut : (p.cut bound).choiceAt index = some choice := hchoice
      rw [Play.perform, Play.perform, chooseIndex_of_some hchoice, chooseIndex_of_some hcut,
        (choose_of_waiting choice hw).1, (choose_of_waiting (p := p.cut bound) choice hw).1]
      exact hp.cut_chosen_or_lost hroom hle hchoice
    | none =>
      have hcut : (p.cut bound).choiceAt index = none := hchoice
      obtain ⟨_, hrefuse, _⟩ := chooseIndex_of_none hchoice
      obtain ⟨_, hrefuse', _⟩ := chooseIndex_of_none hcut
      left
      rw [Play.perform, Play.perform, hrefuse, hrefuse']
      rfl
  | _ => exact absurd hmove Bool.false_ne_true

/-- A run comes to the same with less room, up to the first move that asks for what would be lost. -/
theorem Moved.run_cut (hp : p.Moved) (hroom : 1 ≤ bound) (hle : bound ≤ p.script.bound)
    {operations : List Operation} (hmoves : ∀ operation ∈ operations, operation.isMove = true) :
    (p.cut bound).run operations = (p.run operations).cut bound ∨
      ∃ before operation after, operations = before ++ operation :: after ∧
        (p.cut bound).run before = (p.run before).cut bound ∧
        (p.cut bound).run (before ++ [operation]) ≠ (p.run (before ++ [operation])).cut bound ∧
        (p.run before).Misses bound.toNat operation := by
  induction operations generalizing p with
  | nil => exact .inl rfl
  | cons operation operations ih =>
    have hmove := hmoves operation List.mem_cons_self
    by_cases hsame : ((p.cut bound).perform operation).play = (p.perform operation).play.cut bound
    · have hrest := ih (hp.perform hmove) (by rw [perform_script]; exact hle)
        fun other hother => hmoves other (List.mem_cons_of_mem _ hother)
      rw [run_cons, run_cons, hsame]
      rcases hrest with heq | ⟨before, first, after, rfl, hbefore, hdiffers, hmisses⟩
      · exact .inl heq
      · refine .inr ⟨operation :: before, first, after, rfl, ?_, ?_, hmisses⟩
        · rw [run_cons, run_cons, hsame]
          exact hbefore
        · rw [List.cons_append, run_cons, run_cons, hsame]
          exact hdiffers
    · exact .inr ⟨[], operation, operations, rfl, rfl, hsame,
        (hp.cut_perform_or_misses hroom hle hmove).resolve_left hsame⟩

/-- Of two fresh plays over the same data, one with less room than the other, the one is the other with its
history cut down, whatever moves are made with both: the position, the pending choice, the world and the latest
blocks are the same. That is so up to the first move where it matters that the one has less room. Such a move
asks for a block that only the longer history holds: it goes on from a node whose own conditions fail, or it
answers a prompt whose id a reaction goes by as well. -/
theorem run_with_less_room {script : Script} {world : World} {bound : Int} {p q : Play}
    (hp : make { script with bound } world none = .ok p) (hq : make script world none = .ok q)
    (hle : bound ≤ script.bound) {operations : List Operation}
    (hmoves : ∀ operation ∈ operations, operation.isMove = true) :
    p.run operations = (q.run operations).cut bound ∨
      ∃ before operation after, operations = before ++ operation :: after ∧
        p.run before = (q.run before).cut bound ∧
        p.run (before ++ [operation]) ≠ (q.run (before ++ [operation])).cut bound ∧
        (q.run before).Misses bound.toNat operation := by
  have hmoved := Moved.fresh hq
  obtain ⟨_, hp⟩ := make_eq_ok hp
  obtain ⟨hroom, hp⟩ := fresh?_eq_some hp
  obtain ⟨_, hq⟩ := make_eq_ok hq
  obtain ⟨_, rfl⟩ := fresh?_eq_some hq
  have hcut : p = Play.cut { script, world, history := ⟨script.graph.entry, [], false, script.bound.toNat⟩ } bound := by
    rw [hp, cut, History.cut, latest_eq_self (Nat.zero_le _)]
  rw [hcut]
  exact hmoved.run_cut hroom hle hmoves

/-- From the porch one follows a cat, which is gone as soon as one has seen it, so that the way leads back to
the porch. After that it leads on to the garden. -/
def porchScript : Script :=
  { graph :=
      { nodes :=
          [{ id := some "porch", kind := .singleParagraph,
             branches := [{ next := some "cat", conditions := [("curious", .bool true)] }], next := some "garden" },
           { id := some "cat", kind := .singleParagraph, conditions := [("curious", .bool true)],
             effects := [("curious", .bool false)], next := some "porch" },
           { id := some "garden", kind := .singleParagraph }] }
    bound := 2 }

/-- A question that comes back after a walk through the hall. A reaction goes by its id. -/
def hallScript : Script :=
  { graph :=
      { nodes :=
          [{ id := some "ask", kind := .dialogueChoice,
             choices :=
               [{ text := "Wait", next := some "hall",
                  reactions := [{ id := some "ask", kind := .singleParagraph }] },
                { text := "Leave" }] },
           { id := some "hall", kind := .singleParagraph, next := some "ask" }] } }

def curiousWorld : World :=
  { flags := [("curious", .bool true)], items := { kind := .items }, notes := { kind := .notes } }

def opened (script : Script) (bound : Int) : Play :=
  { script := { script with bound }, history := ⟨script.graph.entry, [], false, bound.toNat⟩, world := curiousWorld }

def hallMoves : List Operation := [.advance, .chooseIndex 0, .advance, .chooseIndex 1]

/-- With room for one block the third move leads to the porch again, and with room for two to the garden, where
the story ends. And with room for two blocks the last answer takes out the question, but with room for ten the
reaction, so that the question stays among the last two blocks. -/
theorem room_matters :
    (make { porchScript with bound := 1 } curiousWorld none = .ok (opened porchScript 1) ∧
      make porchScript curiousWorld none = .ok (opened porchScript 2) ∧
      ((opened porchScript 1).run [.advance, .advance, .advance]).history.current = some "porch" ∧
      ((opened porchScript 2).run [.advance, .advance, .advance]).history.current = none) ∧
    make { hallScript with bound := 2 } curiousWorld none = .ok (opened hallScript 2) ∧
      make hallScript curiousWorld none = .ok (opened hallScript 10) ∧
      ((opened hallScript 2).run hallMoves).history.blocks.map Block.id = [some "hall", none] ∧
      (latest 2 ((opened hallScript 10).run hallMoves).history.blocks).map Block.id = [some "ask", none] := by
  refine ⟨⟨rfl, rfl, ?_, ?_⟩, rfl, rfl, ?_, ?_⟩ <;> decide +kernel

/-- Among the moves from the porch there is one that asks for a block that less room has lost. -/
theorem porchPlay_run_with_less_room :
    make { porchScript with bound := 1 } curiousWorld none = .ok (opened porchScript 1) ∧
      make porchScript curiousWorld none = .ok (opened porchScript 2) ∧ (1 : Int) ≤ porchScript.bound ∧
      (∀ operation ∈ [Operation.advance, .advance, .advance], operation.isMove = true) ∧
      ∃ before operation after, [Operation.advance, .advance, .advance] = before ++ operation :: after ∧
        (opened porchScript 1).run before = ((opened porchScript 2).run before).cut 1 ∧
        ((opened porchScript 2).run before).Misses 1 operation := by
  have hnarrow : make { porchScript with bound := 1 } curiousWorld none = .ok (opened porchScript 1) := rfl
  have hwide : make porchScript curiousWorld none = .ok (opened porchScript 2) := rfl
  have hle : (1 : Int) ≤ porchScript.bound := by decide
  have hmoves : ∀ operation ∈ [Operation.advance, .advance, .advance], operation.isMove = true := by decide
  have hporch : ((opened porchScript 1).run [.advance, .advance, .advance]).history.current = some "porch" := by
    decide +kernel
  have hended : ((opened porchScript 2).run [.advance, .advance, .advance]).history.current = none := by
    decide +kernel
  rcases run_with_less_room hnarrow hwide hle hmoves with hsame | ⟨before, operation, after, heq, hbefore, _, hmisses⟩
  · have hcurrent := congrArg (fun play : Play => play.history.current) hsame
    exact absurd (hporch.symm.trans (hcurrent.trans hended)) (Option.some_ne_none _)
  · exact ⟨hnarrow, hwide, hle, hmoves, before, operation, after, heq, hbefore, hmisses⟩

end Play
end BranchingStory
