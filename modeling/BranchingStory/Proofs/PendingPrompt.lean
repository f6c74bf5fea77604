import BranchingStory.Proofs.Progress
import BranchingStory.Proofs.Stability
import Mathlib.Data.List.Infix

/-!
# Pending prompts and what is on screen

While a choice is pending, the prompt that it answers is the last block on display. A snapshot does not say
whether a choice is pending; whoever reads it takes one to be pending exactly if the position is a prompt. That
guess is right for every prompt that has been shown. It is wrong for a story whose entry is a prompt, as long as
nothing has been shown: reloading that very position leaves a choice pending, with nothing on display. A play
that reloads points of its own run keeps pending prompts on display exactly if it never reloads such a point.
-/

namespace BranchingStory

namespace Block

/-- The block shows a node: as it was put on display, or as a snapshot keeps it. Only the speaker of a line is
frozen, never that of a prompt. -/
def Shows (b : Block) (n : Node) : Prop :=
  ∃ frozen, (n.isPrompt = true → frozen = none) ∧ (b = .ofNode n frozen ∨ b = (Block.ofNode n frozen).normal)

theorem Shows.id {b : Block} {n : Node} (h : b.Shows n) : b.id = n.id := by
  obtain ⟨frozen, _, rfl | rfl⟩ := h <;> rfl

theorem Shows.normal {b : Block} {n : Node} (h : b.Shows n) : b.normal.Shows n := by
  obtain ⟨frozen, hfrozen, rfl | rfl⟩ := h
  · exact ⟨frozen, hfrozen, .inr rfl⟩
  · exact ⟨frozen, hfrozen, .inr (normal_normal _)⟩

end Block

/-- The last block on display shows a node. -/
def History.ShowsLast (h : History) (n : Node) : Prop := ∃ last, h.blocks.getLast? = some last ∧ last.Shows n

namespace Play

variable {p : Play}

theorem blockIn_shows (world : World) (n : Node) : (p.blockIn world n).Shows n := by
  unfold blockIn freeze
  split
  · rename_i hline
    refine ⟨_, fun hprompt => ?_, .inl (Told.value_map _ _)⟩
    rw [Node.isPrompt, hline] at hprompt
    exact absurd hprompt (by decide)
  · exact ⟨none, fun _ => rfl, .inl rfl⟩

/-! ## Runs that reload -/

/-- A run that reloads nothing but points of its own: what the play was after some of the operations that came
before. -/
inductive Revisits (p : Play) : List Operation → Prop where
  | nil : p.Revisits []
  | other {operations : List Operation} {operation : Operation} (h : p.Revisits operations)
      (hother : ∀ snapshot, operation ≠ .restore snapshot) : p.Revisits (operations ++ [operation])
  | reload {operations earlier : List Operation} (h : p.Revisits operations) (hearlier : earlier <+: operations) :
      p.Revisits (operations ++ [.restore (.object (p.run earlier).history.snapshot)])

/-- Somewhere the run reloads a point at which the play stood at a prompt and no choice was pending: the prompt
had not been shown yet. -/
def Reopens (p : Play) (operations : List Operation) : Prop :=
  ∃ before earlier after,
    operations = before ++ .restore (.object (p.run earlier).history.snapshot) :: after ∧ earlier <+: before ∧
      (p.run earlier).atPrompt = true ∧ (p.run earlier).history.waiting = false

theorem Reopens.mono {operations more : List Operation} (h : p.Reopens operations)
    (hmore : operations <+: more) : p.Reopens more := by
  obtain ⟨before, earlier, after, rfl, hearlier, hprompt, hwaiting⟩ := h
  obtain ⟨rest, rfl⟩ := hmore
  refine ⟨before, earlier, after ++ rest, ?_, hearlier, hprompt, hwaiting⟩
  rw [List.append_assoc, List.cons_append]

/-- Where a play stands: at a node that is the last one on display, or nothing is on display, and a choice is
pending then only for a given reason. -/
structure Standing (p : Play) (reason : Prop) : Prop where
  room : 1 ≤ p.script.bound
  bound : p.history.bound = p.script.bound.toNat
  stands : ∀ n, p.node? = some n →
    p.history.blocks = [] ∧ (p.history.waiting = true → reason) ∨ p.history.ShowsLast n

theorem Standing.one_le_bound {reason : Prop} (h : p.Standing reason) : 1 ≤ p.history.bound := by
  have hroom := h.room
  rw [h.bound]
  omega

theorem Standing.mono {reason other : Prop} (h : p.Standing reason) (hother : reason → other) :
    p.Standing other := by
  refine ⟨h.room, h.bound, fun n hn => ?_⟩
  rcases h.stands n hn with ⟨hempty, hwaiting⟩ | hlast
  · exact .inl ⟨hempty, fun hw => hother (hwaiting hw)⟩
  · exact .inr hlast

theorem Standing.fresh {script : Script} {world : World} (hmake : make script world none = .ok p)
    (reason : Prop) : p.Standing reason := by
  obtain ⟨_, hp⟩ := make_eq_ok hmake
  obtain ⟨hroom, rfl⟩ := fresh?_eq_some hp
  exact ⟨hroom, rfl, fun n _ => .inl ⟨rfl, fun hw => absurd hw Bool.false_ne_true⟩⟩

theorem Standing.shown {q : Play} {reason : Prop} (h : p.Standing reason) (hscript : q.script = p.script)
    (hbound : q.history.bound = p.history.bound) (old : List Block)
    (hnode : ∀ n, q.node? = some n → ∃ last, last.Shows n ∧
      q.history.blocks = latest p.history.bound (old ++ [last])) : q.Standing reason := by
  refine ⟨hscript ▸ h.room, hbound.trans (hscript ▸ h.bound), fun n hn => .inr ?_⟩
  obtain ⟨last, hlast, hblocks⟩ := hnode n hn
  refine ⟨last, ?_, hlast⟩
  rw [hblocks, latest_append_singleton old last h.one_le_bound, List.getLast?_concat]

theorem Standing.rendered {reason : Prop} (h : p.Standing reason) {n : Node} (hn : p.upcoming = some n) :
    (p.rendered n).Standing reason := by
  refine h.shown rfl (History.follow_bound _ _) p.history.blocks fun here hhere => ?_
  refine ⟨p.upcomingBlock n, eq_of_node?_rendered hn hhere ▸ blockIn_shows _ _, ?_⟩
  rw [Play.rendered, History.follow_blocks, History.append_blocks]

theorem Standing.chosen {reason : Prop} (h : p.Standing reason) (choice : Choice) :
    (p.chosen choice).Standing reason := by
  have hbound : (p.chosen choice).history.bound = p.history.bound :=
    (History.follow_bound _ _).trans answered_bound
  refine h.shown rfl hbound (p.answered.blocks ++ p.spokenBlocks choice) fun here hhere => ?_
  refine ⟨p.blockIn (p.chosenWorld choice) here, blockIn_shows _ _, ?_⟩
  rw [Play.chosen, History.follow_blocks, History.append_blocks, answered_bound, chosenBlocks,
    chosenNode_of_node? hhere, Option.toList_some, List.map_singleton, List.append_assoc]

theorem Standing.reload {q : Play} {reason other : Prop} (h : p.Standing reason) (hq : q.Standing other)
    (hscript : q.script = p.script) (hbounded : q.history.blocks.length ≤ q.history.bound) {history : History}
    (hread : (History.ofSnapshot p.script.graph p.script.bound (.object q.history.snapshot)).result = .ok history)
    (hreason : q.atPrompt = true → (q.history.waiting = true → other) → reason) :
    Standing { p with history } reason := by
  have hbound : q.history.bound = p.script.bound.toNat := hscript ▸ hq.bound
  rw [History.ofSnapshot_snapshot p.script.graph h.room hbound, latest_eq_self hbounded] at hread
  obtain rfl := Except.ok.inj hread
  refine ⟨h.room, hbound, fun n hn => ?_⟩
  have hsame : q.node? = some n := by rw [node?, hscript]; exact hn
  rcases hq.stands n hsame with ⟨hempty, hwaiting⟩ | ⟨last, hlast, hshows⟩
  · refine .inl ⟨by rw [hempty]; rfl, fun hw => hreason ?_ hwaiting⟩
    rw [atPrompt, node?, hscript]
    exact hw
  · refine .inr ⟨last.normal, ?_, hshows.normal⟩
    rw [List.getLast?_map, hlast]
    rfl

theorem Standing.perform {reason : Prop} (h : p.Standing reason) (operation : Operation)
    (hrestore : ∀ snapshot, operation = .restore snapshot → ∀ history,
      (History.ofSnapshot p.script.graph p.script.bound snapshot).result = .ok history →
      Standing { p with history } reason) : (p.perform operation).play.Standing reason := by
  refine perform_induction_of_eq (P := fun q => q.Standing reason) operation h ?mark ?ends
    (fun n hn => h.rendered hn) h.chosen ?reset hrestore ?flags
  case mark => exact fun q begun ambienceStarted hq => ⟨hq.room, hq.bound, hq.stands⟩
  case ends =>
    refine ⟨h.room, h.bound, fun n hn => ?_⟩
    exact absurd (hn.symm.trans (node?_of_ended rfl)) (Option.some_ne_none n)
  case reset =>
    intro history hmake
    obtain ⟨_, rfl⟩ := History.make?_nil_eq_some.mp hmake
    exact ⟨h.room, rfl, fun n _ => .inl ⟨rfl, fun hw => absurd hw Bool.false_ne_true⟩⟩
  case flags => exact fun held _ => ⟨h.room, h.bound, h.stands⟩

/-- At every point of a run that reloads points of its own, the play stands at a node that is the last one on
display, unless nothing is. A choice is pending then only if the run has reopened a prompt. -/
theorem Standing.run {script : Script} {world : World} (hmake : make script world none = .ok p)
    {operations : List Operation} (hruns : p.Revisits operations) :
    ∀ before, before <+: operations → (p.run before).Standing (p.Reopens before) := by
  have hbounded : ∀ before, (p.run before).history.blocks.length ≤ (p.run before).history.bound := by
    obtain ⟨rfl, hconsistent⟩ := make_consistent (fun h hh => absurd hh.symm (Option.some_ne_none h)) hmake
    exact fun before => (run_consistent hconsistent before).bounded
  induction hruns with
  | nil =>
    intro before hbefore
    obtain rfl := List.prefix_nil.mp hbefore
    exact .fresh hmake _
  | @other operations operation _ hother ih =>
    intro before hbefore
    rcases List.prefix_concat_iff.mp hbefore with rfl | hbefore
    · rw [run_append, run_cons, run_nil]
      have hlast := (ih operations List.prefix_rfl).mono
        fun hreopens => hreopens.mono (List.prefix_append operations [operation])
      exact hlast.perform operation fun snapshot heq => absurd heq (hother snapshot)
    · exact ih before hbefore
  | @reload operations earlier _ hearlier ih =>
    intro before hbefore
    rcases List.prefix_concat_iff.mp hbefore with rfl | hbefore
    · rw [run_append, run_cons, run_nil]
      have hprefix := List.prefix_append operations
        [.restore (.object (p.run earlier).history.snapshot)]
      have hlast := (ih operations List.prefix_rfl).mono fun hreopens => hreopens.mono hprefix
      refine hlast.perform _ fun snapshot heq history hread => ?_
      obtain rfl := Operation.restore.inj heq
      refine hlast.reload (ih earlier hearlier) ?_ (hbounded earlier) hread ?_
      · rw [run_script, run_script]
      · intro hprompt hwaiting
        cases hw : (p.run earlier).history.waiting with
        | true => exact (hwaiting hw).mono (hearlier.trans hprefix)
        | false => exact ⟨operations, earlier, [], rfl, hearlier, hprompt, hw⟩
    · exact ih before hbefore

/-! ## Pending prompts -/

/-- A pending choice is one of the prompt at the position, and the block of that prompt is the last one on
display. -/
def PromptOnScreen (p : Play) : Prop :=
  p.history.waiting = true → ∃ prompt last, p.node? = some prompt ∧ prompt.isPrompt = true ∧
    p.history.blocks.getLast? = some last ∧ (last = .ofNode prompt ∨ last = (Block.ofNode prompt).normal)

/-- A prompt that has been shown waits for an answer, so where none is pending nothing has been shown. -/
theorem Standing.blocks_eq_nil {reason : Prop} (h : p.Standing reason)
    (hp : p.history.Consistent p.script.graph) (hprompt : p.atPrompt = true)
    (hwaiting : p.history.waiting = false) : p.history.blocks = [] := by
  obtain ⟨n, hn, hkind⟩ := atPrompt_iff.mp hprompt
  rcases h.stands n hn with ⟨hempty, _⟩ | ⟨last, hlast, hshows⟩
  · exact hempty
  · have hshown : ∃ b ∈ p.history.blocks, b.id = p.history.current :=
      ⟨last, List.mem_of_getLast? hlast, hshows.id.trans (Graph.id_of_find? hn)⟩
    exact absurd (hwaiting.symm.trans (hp.unanswered n hn hkind hshown)) Bool.false_ne_true

theorem not_promptOnScreen_reload {q : Play} (hroom : 1 ≤ p.script.bound)
    (hbound : q.history.bound = p.script.bound.toNat) (hscript : q.script = p.script)
    (hempty : q.history.blocks = []) (hprompt : q.atPrompt = true) :
    ¬ (p.perform (.restore (.object q.history.snapshot))).play.PromptOnScreen := by
  intro hscreen
  have hread := History.ofSnapshot_snapshot p.script.graph hroom hbound
  rw [hempty, latest_eq_self (Nat.zero_le _)] at hread
  obtain ⟨_, ambienceStarted, hplay⟩ := restore_of_ok hread
  rw [perform, hplay] at hscreen
  rw [atPrompt, node?, hscript] at hprompt
  obtain ⟨_, last, _, _, hlast, _⟩ := hscreen hprompt
  cases hlast

/-- A pending prompt is on display at every point of a run that reloads points of its own, exactly if the run
never reloads a point at which the play stood at a prompt that it had not shown yet. -/
theorem promptOnScreen_iff {script : Script} {world : World} (hmake : make script world none = .ok p)
    {operations : List Operation} (hruns : p.Revisits operations) :
    (∀ before, before <+: operations → (p.run before).PromptOnScreen) ↔ ¬ p.Reopens operations := by
  have hstanding := Standing.run hmake hruns
  have hconsistent : ∀ before, (p.run before).history.Consistent (p.run before).script.graph := by
    intro before
    obtain ⟨rfl, hfresh⟩ := make_consistent (fun h hh => absurd hh.symm (Option.some_ne_none h)) hmake
    rw [run_script]
    exact run_consistent hfresh before
  constructor
  · rintro hscreen ⟨before, earlier, after, rfl, hearlier, hprompt, hwaiting⟩
    have hprefix : before <+: before ++ .restore (.object (p.run earlier).history.snapshot) :: after :=
      List.prefix_append _ _
    have hat := hstanding before hprefix
    have hthere := hstanding earlier (hearlier.trans hprefix)
    have hempty := hthere.blocks_eq_nil (hconsistent earlier) hprompt hwaiting
    have hscript : (p.run earlier).script = (p.run before).script := by rw [run_script, run_script]
    refine not_promptOnScreen_reload hat.room (hscript ▸ hthere.bound) hscript hempty hprompt ?_
    have hreloaded := hscreen (before ++ [.restore (.object (p.run earlier).history.snapshot)])
      ⟨after, by rw [List.append_assoc, List.singleton_append]⟩
    rwa [run_append, run_cons, run_nil] at hreloaded
  · intro hreopens before hbefore hwaiting
    obtain ⟨prompt, hprompt, hkind⟩ := (hconsistent before).pending hwaiting
    rcases (hstanding before hbefore).stands prompt hprompt with ⟨_, hreason⟩ | ⟨last, hlast, frozen, hfrozen, hshows⟩
    · exact absurd ((hreason hwaiting).mono hbefore) hreopens
    · obtain rfl := hfrozen hkind
      exact ⟨prompt, last, hprompt, hkind, hlast, hshows⟩

def doorPlay : Play :=
  { script :=
      { graph := { nodes := [{ id := some "door", kind := .dialogueChoice, choices := [{ text := "Knock" }] }] } }
    history := ⟨some "door", [], false, 10⟩
    world := { items := { kind := .items }, notes := { kind := .notes } } }

def restart (p : Play) : List Operation := [.restore (.object p.history.snapshot)]

theorem revisits_restart : p.Revisits p.restart := .reload .nil List.prefix_rfl

/-- A run that reloads its own start can come to a pending prompt that is not on display. -/
theorem exists_not_promptOnScreen : ¬ ∀ (script : Script) (world : World) (p : Play) (operations : List Operation),
    make script world none = .ok p → p.Revisits operations → (p.run operations).PromptOnScreen := by
  intro hall
  have hwaiting : (doorPlay.run doorPlay.restart).history.waiting = true := by decide +kernel
  have hempty : (doorPlay.run doorPlay.restart).history.blocks.length = 0 := by decide +kernel
  have hscreen := hall doorPlay.script doorPlay.world doorPlay doorPlay.restart rfl revisits_restart
  obtain ⟨_, last, _, _, hlast, _⟩ := hscreen hwaiting
  rw [List.eq_nil_of_length_eq_zero hempty] at hlast
  cases hlast

def gateReload : List Operation :=
  [.advance, .advance, .restore (.object (gatePlay.run [.advance, .advance]).history.snapshot)]

theorem gatePlay_promptOnScreen_iff :
    make gatePlay.script gatePlay.world none = .ok gatePlay ∧ gatePlay.Revisits gateReload ∧
      (gatePlay.run gateReload).history.waiting = true ∧ (gatePlay.run gateReload).PromptOnScreen ∧
      make doorPlay.script doorPlay.world none = .ok doorPlay ∧ doorPlay.Revisits doorPlay.restart ∧
      doorPlay.Reopens doorPlay.restart ∧
      ¬ ∀ before, before <+: doorPlay.restart → (doorPlay.run before).PromptOnScreen := by
  have hgate : make gatePlay.script gatePlay.world none = .ok gatePlay := rfl
  have hruns : gatePlay.Revisits gateReload :=
    .reload (.other (.other .nil fun _ => Operation.noConfusion) fun _ => Operation.noConfusion) List.prefix_rfl
  have hwaiting : (gatePlay.run gateReload).history.waiting = true := by decide +kernel
  have hshown : ∀ before ∈ gateReload.inits,
      (gatePlay.run before).atPrompt = true → (gatePlay.run before).history.waiting = true := by
    decide +kernel
  have hkept : ¬ gatePlay.Reopens gateReload := by
    rintro ⟨before, earlier, after, heq, hearlier, hprompt, hpending⟩
    have hmem : earlier ∈ gateReload.inits :=
      (List.mem_inits _ _).mpr (hearlier.trans (heq ▸ List.prefix_append _ _))
    exact absurd (hpending.symm.trans (hshown earlier hmem hprompt)) Bool.false_ne_true
  have hdoor : make doorPlay.script doorPlay.world none = .ok doorPlay := rfl
  have hreopens : doorPlay.Reopens doorPlay.restart := ⟨[], [], [], rfl, List.prefix_rfl, rfl, rfl⟩
  exact ⟨hgate, hruns, hwaiting, (promptOnScreen_iff hgate hruns).mpr hkept gateReload List.prefix_rfl, hdoor,
    revisits_restart, hreopens, fun hscreen => (promptOnScreen_iff hdoor revisits_restart).mp hscreen hreopens⟩

end Play
end BranchingStory
