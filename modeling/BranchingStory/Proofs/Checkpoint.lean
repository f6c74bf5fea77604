import BranchingStory.Proofs.Mirror
import BranchingStory.Proofs.Sessions

/-!
# Saves are checkpoints

A save leaves out the pending choice, the mark that the story has begun, and all that is empty inside the
displayed choices. None of it is missed. The pending choice follows from the position, unless the story
stands at a prompt that it has not shown yet; the rest steers nothing. So a loaded session agrees with
the saved one on everything that moves look at, and both go on alike. What has to hold of the saved
session for this holds of every session that a run can come to.
-/

namespace BranchingStory

namespace Block

theorem face_normal {b : Block} (h : b.Attributed) : b.normal.face = b.face := by
  rw [normal, face, face, speakerOr_eq_self h]

end Block

namespace Play

variable {p q : Play}

theorem blockIn_attributed (world : World) (n : Node) : (p.blockIn world n).Attributed := by
  unfold blockIn freeze
  split
  · rw [Told.value_map]
    exact (Block.proper_ofNode (.inr ⟨_, _, rfl⟩)).attributed
  · exact (Block.proper_ofNode (.inl rfl)).attributed

/-! ## What can be saved -/

/-- What makes a save of the play complete. -/
structure Savable (p : Play) : Prop where
  consistent : p.history.Consistent p.script.graph
  room : 1 ≤ p.script.bound
  bound : p.history.bound = p.script.bound.toNat
  blocks : ∀ b ∈ p.history.blocks, b.Attributed
  world : p.world.Valid
  defaults : p.world.defaults.Scalar

theorem Savable.make {script : Script} {flags : FlagValues} {items held notes unlocked : List String}
    (hmake : Play.make script (World.make (.ofValues flags) items held notes unlocked).value none = .ok p) :
    p.Savable := by
  obtain ⟨_, hfresh⟩ := make_eq_ok hmake
  obtain ⟨hroom, rfl⟩ := fresh?_eq_some hfresh
  exact ⟨History.Consistent.fresh script.graph script.bound.toNat, hroom, rfl,
    fun b hb => absurd hb List.not_mem_nil, World.Valid.make flags items held notes unlocked, flags, rfl⟩

theorem attributed_append {h : History} {blocks : List Block} (hold : ∀ b ∈ h.blocks, b.Attributed)
    (hnew : ∀ b ∈ blocks, b.Attributed) : ∀ b ∈ (h.append blocks).blocks, b.Attributed := by
  intro b hb
  rcases List.mem_append.mp (mem_of_mem_latest hb) with hb | hb
  · exact hold b hb
  · exact hnew b hb

theorem chosenWorld_valid (h : p.world.Valid) (choice : Choice) : (p.chosenWorld choice).Valid :=
  ((h.applyEffects choice.effects).applyAll choice.reactions).applyAll _

theorem Savable.marked (h : p.Savable) (begun ambienceStarted : Bool) :
    Savable { p with begun, ambienceStarted } :=
  ⟨h.consistent, h.room, h.bound, h.blocks, h.world, h.defaults⟩

theorem Savable.withHistory (h : p.Savable) {snapshot : Json} {history : History}
    (hread : (History.ofSnapshot p.script.graph p.script.bound snapshot).result = .ok history) :
    Savable { p with history } := by
  obtain ⟨current, blocks, hmake⟩ := History.exists_of_ofSnapshot_eq_ok hread
  obtain ⟨_, hhistory⟩ := History.make?_eq_some.mp hmake
  have hbound : history.bound = p.script.bound.toNat := by rw [hhistory]
  have hblocks : ∀ b ∈ history.blocks, b.Attributed := fun b hb =>
    (History.proper_of_ofSnapshot hread b hb).attributed
  exact ⟨ofSnapshot_consistent hread, h.room, hbound, hblocks, h.world, h.defaults⟩

/-- Every operation keeps a play savable, unless the host puts something into the flags that is no flag
value. -/
theorem Savable.perform (h : p.Savable) {operation : Operation}
    (hflags : ∀ held, operation = .flags held → held.Scalar) : (p.perform operation).play.Savable := by
  refine perform_induction operation h ?mark ?ends ?shows ?chosen ?reset ?restore ?flags
  case mark => exact fun q begun ambienceStarted hq => hq.marked begun ambienceStarted
  case ends =>
    exact ⟨History.Consistent.ended h.consistent.bounded, h.room, h.bound, h.blocks, h.world, h.defaults⟩
  case shows =>
    intro n hn
    refine ⟨rendered_consistent hn, h.room, ?_, ?_, h.world.apply n, h.defaults⟩
    · exact (History.follow_bound _ _).trans h.bound
    · rw [rendered, History.follow_blocks]
      refine attributed_append h.blocks fun b hb => ?_
      rw [List.mem_singleton.mp hb]
      exact blockIn_attributed _ n
  case chosen =>
    intro choice
    have hdefaults : (p.chosen choice).world.defaults.Scalar := by
      have heq : (p.chosen choice).world.defaults = p.world.defaults := (chosenWorld_kin choice).defaults
      rw [heq]
      exact h.defaults
    refine ⟨chosen_consistent choice, h.room, ?_, ?_, chosenWorld_valid h.world choice, hdefaults⟩
    · exact (History.follow_bound _ _).trans (answered_bound.trans h.bound)
    · rw [chosen, History.follow_blocks]
      refine attributed_append (fun b hb => h.blocks b (mem_of_mem_answered hb)) fun b hb => ?_
      obtain ⟨n, rfl⟩ := exists_of_mem_chosenBlocks hb
      exact blockIn_attributed _ n
  case reset =>
    intro history hmake
    obtain ⟨_, rfl⟩ := History.make?_nil_eq_some.mp hmake
    exact ⟨History.Consistent.fresh _ _, h.room, rfl, fun b hb => absurd hb List.not_mem_nil, h.world,
      h.defaults⟩
  case restore => exact fun snapshot history hread => h.withHistory hread
  case flags =>
    intro held hheld
    have hworld : (p.withFlags held).world.Valid := ⟨hflags held hheld, h.world.items, h.world.notes⟩
    exact ⟨h.consistent, h.room, h.bound, h.blocks, hworld, h.defaults⟩

theorem Savable.withWorld (h : p.Savable) {world : World} (hworld : world.Valid)
    (hdefaults : world.defaults.Scalar) : Savable { p with world } :=
  ⟨h.consistent, h.room, h.bound, h.blocks, hworld, hdefaults⟩

end Play

theorem History.map_face_normal {h : History} (hbounded : h.blocks.length ≤ h.bound)
    (hblocks : ∀ b ∈ h.blocks, b.Attributed) :
    ((latest h.bound h.blocks).map Block.normal).map Block.face = h.blocks.map Block.face := by
  rw [latest_eq_self hbounded, List.map_map]
  exact List.map_congr_left fun b hb => Block.face_normal (hblocks b hb)

namespace Session

variable {s t : Session}

/-- The host sets flags to nothing but flag values. -/
def Action.SetsScalars : Action → Prop
  | .play (.flags held) => held.Scalar
  | _ => True

theorem savable_act (h : s.play.Savable) {action : Action} (haction : action.SetsScalars) :
    (s.act action).play.Savable := by
  cases action with
  | play operation =>
    refine h.perform ?_
    rintro held rfl
    exact haction
  | setFlag id value => exact h.withWorld (h.world.setFlag id value) h.defaults
  | newGame =>
    have hreset : (s.play.perform .reset).play.Savable := h.perform fun held hheld => Operation.noConfusion hheld
    have hworld : s.newWorld.Valid :=
      ⟨h.defaults, Collection.Valid.restore _ _, Collection.Valid.restore _ _⟩
    obtain ⟨ambienceStarted, hplay⟩ := newGame_play (s := s)
    rw [act, hplay]
    exact (hreset.withWorld hworld h.defaults).marked s.play.reset.play.begun ambienceStarted
  | load document =>
    rcases loadDocument_cases (s := s) document with hload | ⟨data, story, history, hdata, hstory, hread⟩
    · rw [act, hload]
      exact h
    · obtain ⟨_, ambienceStarted, hplay⟩ := loadDocument_of_ok hdata hstory hread
      rw [act, hplay]
      exact ((h.withHistory hread).withWorld (World.Valid.load s.play.world data) h.defaults).marked true
        ambienceStarted

theorem savable_actAll (h : s.play.Savable) {actions : List Action}
    (hactions : ∀ action ∈ actions, action.SetsScalars) : (s.actAll actions).play.Savable := by
  refine actAll_induction (P := fun t => t.play.Savable) h ?_
  intro t action haction ht
  exact savable_act ht (hactions action haction)

end Session

/-! ## Loading what was saved -/

/-- The plays are played over the same data, whatever has happened in them. -/
structure Play.SameData (p q : Play) : Prop where
  graph : p.script.graph = q.script.graph
  cast : p.script.cast = q.script.cast
  bound : p.script.bound = q.script.bound
  items : p.world.items.catalogue = q.world.items.catalogue
  notes : p.world.notes.catalogue = q.world.notes.catalogue

/-- The plays have come equally far: the same position, pending choice, flags, held items, unlocked notes
and blocks, these with all but the choices and graphics that they display. -/
structure Play.SameProgress (p q : Play) : Prop where
  current : p.history.current = q.history.current
  waiting : p.history.waiting = q.history.waiting
  ended : p.history.isEnded = q.history.isEnded
  flags : p.world.flags = q.world.flags
  items : p.world.items.ids = q.world.items.ids
  notes : p.world.notes.ids = q.world.notes.ids
  blocks : p.history.blocks.map Block.face = q.history.blocks.map Block.face

namespace Play

variable {p q : Play}

/-- Unless the story stands at a prompt that it has not shown yet, the position tells whether a choice is
pending. -/
theorem atPrompt_eq_waiting (hp : p.history.Consistent p.script.graph)
    (hshown : p.atPrompt = true → p.history.waiting = true) : p.atPrompt = p.history.waiting := by
  rw [Bool.eq_iff_iff]
  exact ⟨hshown, fun hw => atPrompt_iff.mpr (hp.pending hw)⟩

theorem Mirrors.sameProgress (h : p.Mirrors q) (hp : p.world.Valid) (hq : q.world.Valid) :
    p.SameProgress q := by
  refine ⟨h.current, h.waiting, ?_, h.world.flags, ?_, ?_, h.blocks⟩
  · rw [History.isEnded, History.isEnded, h.current]
  · exact Collection.ids_eq_of_same hp.items hq.items h.world.items
  · exact Collection.ids_eq_of_same hp.notes hq.notes h.world.notes

theorem run_valid (hp : p.world.Valid) {operations : List Operation}
    (hmoves : ∀ operation ∈ operations, operation.isMove = true) : (p.run operations).world.Valid := by
  refine run_induction (P := fun q => q.world.Valid) hp ?_
  intro q operation hoperation hq
  refine perform_induction (P := fun q => q.world.Valid) operation hq ?mark hq ?shows ?chosen ?reset
    ?restore ?flags
  case mark => exact fun _ _ _ h => h
  case shows => exact fun n _ => hq.apply n
  case chosen => exact chosenWorld_valid hq
  case reset => exact fun _ _ => hq
  case restore => exact fun _ _ _ => hq
  case flags =>
    rintro held rfl
    exact absurd (hmoves _ hoperation) Bool.false_ne_true

end Play

theorem Play.SameData.actAll {s t : Session} (h : t.play.SameData s.play) (after before : List Session.Action) :
    (t.actAll after).play.SameData (s.actAll before).play := by
  have hafter := Session.actAll_kin (s := t) after
  have hbefore := Session.actAll_kin (s := s) before
  refine ⟨?_, ?_, ?_, ?_, ?_⟩
  · rw [Session.actAll_script, Session.actAll_script, h.graph]
  · rw [Session.actAll_script, Session.actAll_script, h.cast]
  · rw [Session.actAll_script, Session.actAll_script, h.bound]
  · exact hafter.items.trans (h.items.trans hbefore.items.symm)
  · exact hafter.notes.trans (h.notes.trans hbefore.notes.symm)

namespace Session

variable {s t : Session}

/-- Loading the save of a savable session into any session over the same data succeeds. What comes of it
mirrors what was saved. -/
theorem loadDocument_save (hs : s.play.Savable)
    (hshown : s.play.atPrompt = true → s.play.history.waiting = true) (hdata : t.play.SameData s.play)
    (timestamp : String) :
    (t.loadDocument (.object (s.save timestamp))).result = .ok true ∧
      (t.loadDocument (.object (s.save timestamp))).session.play.Mirrors s.play ∧
      (t.loadDocument (.object (s.save timestamp))).session.play.world.Valid := by
  obtain ⟨values, hvalues⟩ := hs.world.flags
  have hread : SaveData.read (.object (s.save timestamp)) =
      .ok ⟨some s.play.history.snapshot, s.play.world.items.ids, s.play.world.notes.ids, values, timestamp⟩ :=
    World.read_save timestamp s.play.history.snapshot hvalues
  have hroom : 1 ≤ t.play.script.bound := hdata.bound ▸ hs.room
  have hbound : s.play.history.bound = t.play.script.bound.toNat := hdata.bound ▸ hs.bound
  have hhistory := History.ofSnapshot_snapshot t.play.script.graph hroom hbound
  obtain ⟨hresult, ambienceStarted, hplay⟩ := loadDocument_of_ok hread rfl hhistory
  refine ⟨hresult, ?_, ?_⟩
  · rw [hplay]
    have hfaces := History.map_face_normal hs.consistent.bounded hs.blocks
    refine Play.Parallels.mirrors ⟨hdata.graph, rfl, ?_, rfl, Block.ids_of_faces hfaces, hvalues.symm⟩ hdata.cast
      hfaces (World.Same.load hs.world hvalues hdata.items hdata.notes)
    rw [← Play.atPrompt_eq_waiting hs.consistent hshown, Play.atPrompt, Play.node?, hdata.graph]
  · rw [hplay]
    exact World.Valid.load t.play.world _

/-- A save is a complete checkpoint. Take any new session, whatever is then done with it, and save it,
unless it stands at a prompt that has not been shown. Loading that save succeeds in every session over the
same data, whatever has been done with that one: in the saved session later on just as in a new one. The
loaded session has come as far as the saved one, and both come equally far by the same moves from there. -/
theorem load_save_sameProgress {script : Script} {flags : FlagValues} {items held notes unlocked : List String}
    (hmake : Play.make script (World.make (.ofValues flags) items held notes unlocked).value none = .ok s.play)
    {before : List Action} (hbefore : ∀ action ∈ before, action.SetsScalars)
    (hshown : (s.actAll before).play.atPrompt = true → (s.actAll before).play.history.waiting = true)
    (timestamp : String) (hdata : t.play.SameData s.play) (after : List Action)
    {moves : List Operation} (hmoves : ∀ operation ∈ moves, operation.isMove = true) :
    ((t.actAll after).loadDocument (.object ((s.actAll before).save timestamp))).result = .ok true ∧
      (((t.actAll after).loadDocument (.object ((s.actAll before).save timestamp))).session.play.run
        moves).SameProgress ((s.actAll before).play.run moves) := by
  have hsaved : (s.actAll before).play.Savable := savable_actAll (.make hmake) hbefore
  have hsame : (t.actAll after).play.SameData (s.actAll before).play := hdata.actAll after before
  obtain ⟨hresult, hmirrors, hvalid⟩ := loadDocument_save hsaved hshown hsame timestamp
  exact ⟨hresult, (hmirrors.run hmoves).sameProgress (Play.run_valid hvalid hmoves)
    (Play.run_valid hsaved.world hmoves)⟩

/-- A guide hands over a lamp and asks, with one answer that leads back to the question. -/
def lampScript : Script :=
  { graph :=
      { nodes :=
          [{ id := some "hall", kind := .characterDialogue, speaker := some (.named "guide"),
             itemsAdded := ["lamp"], effects := [("met", .bool true)], next := some "ask" },
           { id := some "ask", kind := .dialogueChoice, graphic := some "",
             choices :=
               [{ text := "Leave", next := some "gate" },
                { text := "Wait", next := some "ask",
                  reactions := [{ id := some "", kind := .singleParagraph, text := .paragraphs [] }] }] },
           { id := some "gate", kind := .singleParagraph, conditions := [("met", .bool true)] }] }
    cast := [("guide", { id := "guide", states := [{ label := some "Guide", condition := some "met" }] })]
    bound := 3 }

def lampSession : Session :=
  { play :=
      { script := lampScript
        history := ⟨some "hall", [], false, 3⟩
        world := (World.make (.ofValues []) ["lamp"] [] [] []).value } }

/-- A session over the same data, without a player for sounds and with the lamp held from the start. -/
def silentSession : Session :=
  { play :=
      { script := { lampScript with hasAudio := false }
        history := ⟨some "hall", [], false, 3⟩
        world := (World.make (.ofValues []) ["lamp"] ["lamp"] [] []).value }
    startingItems := ["lamp"] }

theorem lampSession_load_save_sameProgress :
    let before : List Action := [.play .advance, .play .advance, .setFlag "day" (.number (.int 2)),
      .play (.chooseIndex 1)]
    let moves : List Operation := [.chooseIndex 0, .advance]
    let saved := lampSession.actAll before
    let document := Json.object (saved.save "now")
    let reloaded := (lampSession.actAll (before ++ [.play (.chooseIndex 0), .newGame])).loadDocument document
    let loaded := (silentSession.actAll [.play .begin]).loadDocument document
    saved.play.history.waiting = true ∧
      reloaded.result = .ok true ∧ (reloaded.session.play.run moves).SameProgress (saved.play.run moves) ∧
      loaded.result = .ok true ∧ (loaded.session.play.run moves).SameProgress (saved.play.run moves) := by
  intro before moves saved document reloaded loaded
  have hmake : Play.make lampScript (World.make (.ofValues []) ["lamp"] [] [] []).value none =
      .ok lampSession.play := rfl
  have hbefore : ∀ action ∈ before, action.SetsScalars := by simp [before, Action.SetsScalars]
  have hwaiting : saved.play.history.waiting = true := by decide +kernel
  have hmoves : ∀ operation ∈ moves, operation.isMove = true := by simp [moves, Operation.isMove]
  have hself : lampSession.play.SameData lampSession.play := ⟨rfl, rfl, rfl, rfl, rfl⟩
  have hsilent : silentSession.play.SameData lampSession.play := ⟨rfl, rfl, rfl, rfl, rfl⟩
  have hreloaded := load_save_sameProgress hmake hbefore (fun _ => hwaiting) "now" hself
    (before ++ [.play (.chooseIndex 0), .newGame]) hmoves
  have hloaded := load_save_sameProgress hmake hbefore (fun _ => hwaiting) "now" hsilent [.play .begin] hmoves
  exact ⟨hwaiting, hreloaded.1, hreloaded.2, hloaded.1, hloaded.2⟩

end Session
end BranchingStory
