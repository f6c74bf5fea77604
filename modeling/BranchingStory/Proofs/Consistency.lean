import BranchingStory.Proofs.Operation
import BranchingStory.Proofs.Snapshot

/-!
# Plays stay consistent

Position, pending choice and history are assigned apart from each other. What ties them together holds
in every play that a host can come to, so no operation ever reports an inconsistency: each way to
change the history ends at a node of the graph, and a choice is pending there exactly if that node is a
prompt.
-/

namespace BranchingStory

/-- The faults that tell of a play that contradicts itself. -/
def PlayFault.isInconsistency : PlayFault → Bool
  | waitingOffPrompt _ | promptNotWaiting _ => true
  | _ => false

namespace History

/-- What ties position, pending choice and blocks together over a graph. A prompt that has not been
shown need not be pending. -/
structure Consistent (h : History) (g : Graph) : Prop where
  pending : h.waiting = true → ∃ n, g.find? h.current = some n ∧ n.isPrompt = true
  unanswered : ∀ n, g.find? h.current = some n → n.isPrompt = true →
    (∃ b ∈ h.blocks, b.id = h.current) → h.waiting = true
  bounded : h.blocks.length ≤ h.bound

theorem hasShown_iff {h : History} {id : Option String} :
    h.hasShown id = true ↔ id.isSome ∧ id ≠ some "" ∧ ∃ b ∈ h.blocks, b.id = id := by
  unfold hasShown
  cases hid : nonEmpty? id with
  | none => rcases nonEmpty?_eq_none.mp hid with rfl | rfl <;> simp
  | some s =>
    obtain ⟨rfl, hs⟩ := nonEmpty?_eq_some.mp hid
    simp [hs]

theorem hasShown_iff_of_find? {h : History} {g : Graph} {id : Option String} {n : Node}
    (hn : g.find? id = some n) : h.hasShown id = true ↔ ∃ b ∈ h.blocks, b.id = id := by
  cases id with
  | none => simp at hn
  | some s =>
    have hs : s ≠ "" := Graph.ne_empty_of_node? hn
    simp [hasShown_iff, hs]

theorem Consistent.follow {h : History} {g : Graph} {next : Option Node}
    (hb : h.blocks.length ≤ h.bound) (hnext : ∀ n, next = some n → g.find? n.id = some n) :
    (h.follow next).Consistent g := by
  cases next with
  | none =>
    exact ⟨fun hw => absurd hw Bool.false_ne_true, fun n hn => absurd hn.symm (Option.some_ne_none n),
      hb⟩
  | some n =>
    have hfind : g.find? n.id = some n := hnext n rfl
    refine ⟨fun hw => ⟨n, hfind, hw⟩, fun m hm hprompt _ => ?_, hb⟩
    obtain rfl : n = m := Option.some.inj (hfind.symm.trans hm)
    exact hprompt

theorem Consistent.ended {h : History} {g : Graph} (hb : h.blocks.length ≤ h.bound) :
    h.ended.Consistent g := by
  have hnone : ∀ n, (none : Option Node) = some n → g.find? n.id = some n :=
    fun n hn => absurd hn.symm (Option.some_ne_none n)
  exact Consistent.follow hb hnone

theorem Consistent.fresh (g : Graph) (bound : Nat) : History.Consistent ⟨g.entry, [], false, bound⟩ g := by
  refine ⟨fun hw => absurd hw Bool.false_ne_true, fun n _ _ hb => ?_, Nat.zero_le bound⟩
  obtain ⟨b, hb, _⟩ := hb
  exact absurd hb List.not_mem_nil

end History

namespace Play

open History

variable {p : Play}

theorem atPrompt_iff :
    p.atPrompt = true ↔ ∃ n, p.script.graph.find? p.history.current = some n ∧ n.isPrompt = true := by
  rw [atPrompt, node?, Option.any_eq_true]

theorem fault?_eq_none (hp : p.history.Consistent p.script.graph) : p.fault? = none := by
  unfold fault?
  split
  · rename_i h
    rw [Bool.and_eq_true] at h
    have hat : p.atPrompt = true := atPrompt_iff.mpr (hp.pending h.1)
    simp [hat] at h
  · split
    · rename_i h
      simp only [Bool.and_eq_true, Bool.not_eq_true'] at h
      obtain ⟨n, hn, hprompt⟩ := atPrompt_iff.mp h.1.1
      have hw := hp.unanswered n hn hprompt ((hasShown_iff_of_find? hn).mp h.2)
      exact absurd (h.1.2.symm.trans hw) Bool.false_ne_true
    · rfl

/-- A play without a fault, within its bound, is consistent. -/
theorem consistent_of_fault? (hfault : p.fault? = none) (hb : p.history.blocks.length ≤ p.history.bound) :
    p.history.Consistent p.script.graph := by
  unfold fault? at hfault
  split at hfault
  · exact absurd hfault (Option.some_ne_none _)
  · rename_i hwaiting
    split at hfault
    · exact absurd hfault (Option.some_ne_none _)
    · rename_i hshown
      refine ⟨fun hw => ?_, fun n hn hprompt hblock => ?_, hb⟩
      · exact atPrompt_iff.mp (by simpa [hw] using hwaiting)
      · have hat : p.atPrompt = true := atPrompt_iff.mpr ⟨n, hn, hprompt⟩
        by_contra hw
        have hcurrent := (hasShown_iff_of_find? hn).mpr hblock
        simp [hat, hw, hcurrent] at hshown

/-! ## Each operation keeps a play consistent -/

theorem rendered_consistent {n : Node} (h : p.upcoming = some n) :
    (p.rendered n).history.Consistent p.script.graph := by
  refine Consistent.follow ?_ fun m hm => ?_
  · exact length_latest_le p.history.bound (p.history.blocks ++ [p.upcomingBlock n])
  · obtain rfl := Node.standing_eq_some hm
    exact find?_of_upcoming h

theorem chosen_consistent (choice : Choice) : (p.chosen choice).history.Consistent p.script.graph := by
  refine Consistent.follow ?_ fun m hm => Graph.find?_id hm
  exact length_latest_le p.answered.bound (p.answered.blocks ++ p.chosenBlocks choice)

theorem advance_consistent (hp : p.history.Consistent p.script.graph) :
    p.advance.play.history.Consistent p.script.graph ∧ p.advance.fault = none := by
  cases hw : p.history.waiting with
  | true =>
    rw [advance_of_waiting hw]
    exact ⟨hp, rfl⟩
  | false =>
    cases h : p.upcoming with
    | none =>
      obtain ⟨hplay, _, hfault⟩ := advance_of_none hw h
      exact ⟨hplay ▸ Consistent.ended hp.bounded, hfault⟩
    | some n =>
      obtain ⟨hplay, _, hfault⟩ := advance_of_upcoming h
      have hrendered := rendered_consistent h
      exact ⟨hplay ▸ hrendered, hfault.trans (fault?_eq_none hrendered)⟩

theorem choose_consistent (hp : p.history.Consistent p.script.graph) (choice : Choice) :
    (p.choose choice).play.history.Consistent p.script.graph ∧ (p.choose choice).fault = none := by
  cases hw : p.history.waiting with
  | true =>
    obtain ⟨hplay, _, hfault⟩ := choose_of_waiting choice hw
    have hchosen := chosen_consistent (p := p) choice
    exact ⟨hplay ▸ hchosen, hfault.trans (fault?_eq_none hchosen)⟩
  | false =>
    rw [choose_of_not_waiting choice hw]
    exact ⟨hp, rfl⟩

theorem advance_fault : p.advance.fault = none := by
  cases hw : p.history.waiting with
  | true =>
    rw [advance_of_waiting hw]
    rfl
  | false =>
    cases h : p.upcoming with
    | none => exact (advance_of_none hw h).2.2
    | some n => exact (advance_of_upcoming h).2.2.trans (fault?_eq_none (rendered_consistent h))

theorem choose_fault (choice : Choice) : (p.choose choice).fault = none := by
  cases hw : p.history.waiting with
  | true => exact (choose_of_waiting choice hw).2.2.trans (fault?_eq_none (chosen_consistent choice))
  | false =>
    rw [choose_of_not_waiting choice hw]
    rfl

theorem ofSnapshot_consistent {g : Graph} {bound : Int} {snapshot : Json} {h : History}
    (hread : (History.ofSnapshot g bound snapshot).result = .ok h) : h.Consistent g := by
  obtain ⟨current, blocks, hmake⟩ := History.exists_of_ofSnapshot_eq_ok hread
  obtain ⟨_, rfl⟩ := History.make?_eq_some.mp hmake
  refine ⟨fun hw => ?_, fun n hn hprompt _ => ?_, length_latest_le _ _⟩
  · exact (Option.any_eq_true _ _).mp hw
  · exact (Option.any_eq_true _ _).mpr ⟨n, hn, hprompt⟩

theorem restoreFrom_of_ok {read : Restoring History} {history : History} (hread : read.result = .ok history)
    (hfault : ({ p with history } : Play).fault? = none) :
    (p.restoreFrom read).fault = none ∧ ∃ ambienceStarted,
      (p.restoreFrom read).play = { p with history, begun := true, ambienceStarted } := by
  have hrestore : (p.restoreFrom read).fault = none ∧ (p.restoreFrom read).play =
      ({ p with history, begun := true, ambienceStarted := false } : Play).startAmbience.play := by
    simp [restoreFrom, hread, hfault]
  obtain ⟨ambienceStarted, hplay⟩ :=
    startAmbience_play (p := { p with history, begun := true, ambienceStarted := false })
  exact ⟨hrestore.1, ambienceStarted, hrestore.2.trans hplay⟩

theorem restoreFrom_of_error {read : Restoring History} {fault : RestoreFault} (hread : read.result = .error fault) :
    p.restoreFrom read = { p.refuse (.restore fault) with events := noticeEvents read.notices } := by
  rw [restoreFrom, hread]

theorem restore_of_ok {snapshot : Json} {history : History}
    (hread : (History.ofSnapshot p.script.graph p.script.bound snapshot).result = .ok history) :
    (p.restore snapshot).fault = none ∧ ∃ ambienceStarted,
      (p.restore snapshot).play = { p with history, begun := true, ambienceStarted } :=
  restoreFrom_of_ok hread (fault?_eq_none (ofSnapshot_consistent hread))

theorem restore_of_error {snapshot : Json} {fault : RestoreFault}
    (hread : (History.ofSnapshot p.script.graph p.script.bound snapshot).result = .error fault) :
    (p.restore snapshot).play = p ∧ (p.restore snapshot).fault = some (.restore fault) := by
  rw [restore, restoreFrom_of_error hread]
  exact ⟨rfl, rfl⟩

theorem perform_consistent (hp : p.history.Consistent p.script.graph) (operation : Operation) :
    (p.perform operation).play.history.Consistent p.script.graph := by
  refine perform_induction (P := fun q => q.history.Consistent p.script.graph) operation hp ?mark ?ends ?shows
    ?chosen ?reset ?restore ?flags
  case mark => exact fun _ _ _ hq => hq
  case ends => exact Consistent.ended hp.bounded
  case shows => exact fun n hn => rendered_consistent hn
  case chosen => exact chosen_consistent
  case reset =>
    intro history hmake
    obtain ⟨_, rfl⟩ := History.make?_nil_eq_some.mp hmake
    exact Consistent.fresh p.script.graph p.script.bound.toNat
  case restore => exact fun _ _ hread => ofSnapshot_consistent hread
  case flags => exact fun _ _ => hp

/-- No operation on a consistent play reports an inconsistency. -/
theorem perform_fault (hp : p.history.Consistent p.script.graph) {operation : Operation} {fault : PlayFault}
    (hfault : (p.perform operation).fault = some fault) : fault.isInconsistency = false := by
  have hnone : ∀ {found : Option PlayFault}, found = none → found ≠ some fault := by
    rintro _ rfl
    exact (Option.some_ne_none fault).symm
  cases operation with
  | begin => exact absurd (begin_eq.2.2.symm.trans hfault) (hnone (advance_consistent hp).2)
  | advance => exact absurd hfault (hnone (advance_consistent hp).2)
  | choose choice => exact absurd hfault (hnone (choose_consistent hp choice).2)
  | chooseIndex index =>
    cases h : p.choiceAt index with
    | some choice =>
      rw [perform, chooseIndex_of_some h] at hfault
      exact absurd hfault (hnone (choose_consistent hp choice).2)
    | none =>
      obtain ⟨found, hrefuse, hkind⟩ := chooseIndex_of_none h
      rw [perform, hrefuse] at hfault
      obtain rfl : found = fault := Option.some.inj hfault
      rcases hkind with rfl | rfl <;> rfl
  | startAmbience => exact absurd hfault (hnone startAmbience_fault)
  | reset =>
    rw [perform, reset] at hfault
    split at hfault
    · exact Option.some.inj hfault ▸ rfl
    · exact absurd hfault (hnone rfl)
  | restore snapshot =>
    cases hread : (History.ofSnapshot p.script.graph p.script.bound snapshot).result with
    | error _ => exact Option.some.inj ((restore_of_error hread).2.symm.trans hfault) ▸ rfl
    | ok _ => exact absurd hfault (hnone (restore_of_ok hread).1)
  | flags held => exact absurd hfault (hnone rfl)

theorem run_consistent (hp : p.history.Consistent p.script.graph) (operations : List Operation) :
    (p.run operations).history.Consistent p.script.graph := by
  have hrun : (p.run operations).script = p.script ∧
      (p.run operations).history.Consistent p.script.graph := by
    refine run_induction (P := fun q => q.script = p.script ∧ q.history.Consistent p.script.graph)
      ⟨rfl, hp⟩ ?_
    rintro q operation _ ⟨hscript, hq⟩
    rw [← hscript] at hq ⊢
    exact ⟨perform_script operation, perform_consistent hq operation⟩
  exact hrun.2

/-! ## Starting out consistent -/

theorem make_eq_ok {script : Script} {world : World} {history : Option History}
    (hmake : make script world history = .ok p) : p.fault? = none ∧
      (history.map (resume script world) <|> fresh? script world) = some p := by
  unfold make at hmake
  split at hmake
  · exact absurd hmake (by simp)
  · rename_i q hq
    split at hmake
    · rename_i hfault
      obtain rfl : q = p := Except.ok.inj hmake
      exact ⟨hfault, hq⟩
    · exact absurd hmake (by simp)

theorem fresh?_eq_some {script : Script} {world : World} (hfresh : fresh? script world = some p) :
    1 ≤ script.bound ∧
      p = { script, world, history := ⟨script.graph.entry, [], false, script.bound.toNat⟩ } := by
  obtain ⟨history, hhistory, hp⟩ := Option.bind_eq_some_iff.mp hfresh
  obtain ⟨hbound, rfl⟩ := History.make?_nil_eq_some.mp hhistory
  exact ⟨hbound, (Option.some.inj hp).symm⟩

theorem make_consistent {script : Script} {world : World} {history : Option History}
    (hhistory : ∀ h, history = some h → h.blocks.length ≤ h.bound)
    (hmake : make script world history = .ok p) :
    p.script = script ∧ p.history.Consistent script.graph := by
  obtain ⟨hfault, hp⟩ := make_eq_ok hmake
  cases history with
  | none =>
    obtain ⟨_, rfl⟩ := fresh?_eq_some hp
    exact ⟨rfl, consistent_of_fault? hfault (Nat.zero_le _)⟩
  | some h =>
    obtain rfl : resume script world h = p := Option.some.inj hp
    exact ⟨rfl, consistent_of_fault? hfault (hhistory h rfl)⟩

/-- However a play is constructed and whatever is done with it afterwards, in whatever order, it never
comes to contradict itself: no operation reports an inconsistency, a pending choice has its prompt at
the position, a displayed prompt at the position is pending, nothing is pending at the end, and the
history is within its bound. -/
theorem run_never_inconsistent {script : Script} {world : World} {history : Option History} {p : Play}
    (hhistory : ∀ h, history = some h →
      ∃ current blocks waiting bound, History.make? current blocks waiting bound = some h)
    (hmake : make script world history = .ok p) (operations : List Operation) :
    (∀ operation fault, ((p.run operations).perform operation).fault = some fault →
      fault.isInconsistency = false) ∧
    ((p.run operations).history.waiting = true →
      ∃ n, (p.run operations).node? = some n ∧ n.isPrompt = true) ∧
    (∀ n, (p.run operations).node? = some n → n.isPrompt = true →
      (∃ b ∈ (p.run operations).history.blocks, b.id = (p.run operations).history.current) →
      (p.run operations).history.waiting = true) ∧
    ((p.run operations).history.isEnded = true → (p.run operations).history.waiting = false) ∧
    (p.run operations).history.blocks.length ≤ (p.run operations).history.bound := by
  have hbounded : ∀ h, history = some h → h.blocks.length ≤ h.bound := by
    intro h hh
    obtain ⟨current, blocks, waiting, bound, hmade⟩ := hhistory h hh
    obtain ⟨_, rfl⟩ := History.make?_eq_some.mp hmade
    exact length_latest_le _ _
  obtain ⟨hscript, hp⟩ := make_consistent hbounded hmake
  rw [← hscript] at hp
  have hq : (p.run operations).history.Consistent (p.run operations).script.graph := by
    rw [run_script]
    exact run_consistent hp operations
  refine ⟨fun operation fault => perform_fault hq, hq.pending, hq.unanswered, ?_, hq.bounded⟩
  intro hend
  have hcurrent : (p.run operations).history.current = none := Option.isNone_iff_eq_none.mp hend
  by_contra hw
  obtain ⟨n, hn, _⟩ := hq.pending (by simpa using hw)
  rw [hcurrent, Graph.find?_none] at hn
  exact absurd hn.symm (Option.some_ne_none n)

/-- A graph with a repeated id, a node without one, a prompt without choices and targets that are not
there. -/
def tangledGraph : Graph :=
  { nodes :=
      [{ id := some "ask", kind := .singleParagraph, next := some "lost" },
       { kind := .dialogueChoice, next := some "ask" },
       { id := some "ask", kind := .dialogueChoice, next := some "mute",
         choices := [{ text := "Go", next := some "lost" }, { text := "Stay" }] },
       { id := some "mute", kind := .dialogueChoice, branches := [{ next := some "lost" }] }] }

/-- A play over the tangled graph that starts out with its prompt pending and shown twice. -/
def tangledPlay : Play :=
  let shown : Block := { id := some "ask", kind := .dialogueChoice, text := .single "Well?" }
  resume { graph := tangledGraph } { items := { kind := .items }, notes := { kind := .notes } }
    ⟨some "ask", [shown, shown], true, 2⟩

theorem tangledPlay_never_inconsistent :
    make tangledPlay.script tangledPlay.world (some tangledPlay.history) = .ok tangledPlay ∧
      ∀ operation fault,
        ((tangledPlay.run [.chooseIndex 1, .choose { text := "Shout" }, .restore (.object []), .begin]).perform
          operation).fault = some fault → fault.isInconsistency = false := by
  have hmake : make tangledPlay.script tangledPlay.world (some tangledPlay.history) = .ok tangledPlay := rfl
  refine ⟨hmake, (run_never_inconsistent (fun h hh => ?_) hmake _).1⟩
  refine ⟨some "ask", tangledPlay.history.blocks, true, 2, ?_⟩
  rw [← hh]
  rfl

end Play
end BranchingStory
