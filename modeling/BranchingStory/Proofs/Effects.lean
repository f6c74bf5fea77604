import BranchingStory.Proofs.Consistency
import BranchingStory.Proofs.DisplayedNodes

/-!
# Effects follow what is displayed

A turn changes the world in several places: a choice sets its flags, then its reactions are carried out, then the
next node is found and carried out, and only then is anything shown. None of this can be told from outside. After
any run the world is what comes of carrying out everything that has been displayed, each once and in the order of
display, and the sounds are the cues of the displayed nodes in that order. What a walk has only passed leaves no
trace, and neither does a call that shows nothing or is refused.
-/

namespace BranchingStory

/-- What a story puts on display: the line that the player says by choosing, a reaction to it, or a node of the
graph. -/
inductive Display where
  | speech (choice : Choice)
  | reaction (n : Node)
  | node (n : Node)

namespace Display

def shownNode : Display → Node
  | speech choice => Play.speech choice
  | reaction n | node n => n

/-- The world after what is displayed has been carried out. The player's line sets the flags of the choice. -/
def carriedOut (w : World) : Display → World
  | speech choice => (w.applyEffects choice.effects).value
  | reaction n | node n => (w.apply n).value

/-- The cues of what is displayed: those of a node of the graph, its ambience before its sound. -/
def cues : Display → List Event
  | node n => (n.ambience.map .ambience).toList ++ (n.sound.map .sound).toList
  | speech _ | reaction _ => []

theorem foldl_carriedOut_reactions (w : World) (reactions : List Node) :
    (reactions.map reaction).foldl carriedOut w = (w.applyAll reactions).value := by
  induction reactions generalizing w with
  | nil => rfl
  | cons n reactions ih => exact ih (w.apply n).value

theorem foldl_carriedOut_node (w : World) (next : Option Node) :
    (next.toList.map node).foldl carriedOut w = (w.applyOption next).value := by
  cases next <;> rfl

end Display

/-! ## Sounds among events -/

def Event.isCue : Event → Bool
  | .ambience _ | .sound _ => true
  | .notice _ | .begun => false

@[simp] theorem filter_isCue_noticeEvents (notices : List Notice) :
    (noticeEvents notices).filter Event.isCue = [] := by
  rw [noticeEvents, List.filter_eq_nil_iff]
  intro event hevent
  obtain ⟨_, _, rfl⟩ := List.mem_map.mp hevent
  exact Bool.false_ne_true

@[simp] theorem filter_isCue_endEvents : Play.endEvents.filter Event.isCue = [] := rfl

namespace Script

variable (s : Script)

/-- The sounds of what is displayed, if there is a player for them. -/
def soundsOf (display : Display) : List Event := if s.hasAudio then display.cues else []

@[simp] theorem filter_isCue_cueEvents (n : Node) :
    (s.cueEvents n).filter Event.isCue = s.soundsOf (.node n) := by
  obtain ⟨graph, cast, bound, hasAudio⟩ := s
  cases hasAudio with
  | false => rfl
  | true =>
    show ((n.ambience.map Event.ambience).toList ++ (n.sound.map Event.sound).toList).filter Event.isCue = _
    cases hambience : n.ambience <;> cases hsound : n.sound <;>
      simp [soundsOf, Display.cues, Event.isCue, hambience, hsound]

theorem flatMap_soundsOf_said (choice : Choice) :
    (Display.speech choice :: choice.reactions.map .reaction).flatMap s.soundsOf = [] := by
  rw [List.flatMap_eq_nil_iff]
  intro display hdisplay
  rcases List.mem_cons.mp hdisplay with rfl | hreaction
  · exact ite_self []
  · obtain ⟨_, _, rfl⟩ := List.mem_map.mp hreaction
    exact ite_self []

theorem flatMap_soundsOf (displays : List Display) :
    displays.flatMap s.soundsOf = if s.hasAudio then displays.flatMap Display.cues else [] := by
  obtain ⟨graph, cast, bound, hasAudio⟩ := s
  cases hasAudio with
  | false => exact List.flatMap_eq_nil_iff.mpr fun _ _ => rfl
  | true => rfl

end Script

namespace Play

variable (p : Play)

def along {α : Type} (p : Play) (give : Play → Operation → List α) : List Operation → List α
  | [] => []
  | operation :: operations => give p operation ++ (p.perform operation).play.along give operations

/-- What an operation puts on display, in order. -/
def displays (operation : Operation) : List Display :=
  ((p.taken operation).elim [] fun choice => .speech choice :: choice.reactions.map .reaction) ++
    (p.displayed operation).toList.map .node

def shows (operation : Operation) : List Block := (p.perform operation).shown

/-- The sounds that an operation asks for. The ambience to start with does not come from what is displayed. -/
def sounds : Operation → List Event
  | .startAmbience => []
  | operation => (p.perform operation).events.filter Event.isCue

variable {p}

/-! ## The displays of a turn -/

theorem perform_of_taken {operation : Operation} {choice : Choice} (h : p.taken operation = some choice) :
    p.history.waiting = true ∧ p.perform operation = p.choose choice ∧
      p.displayed operation = p.chosenNode choice := by
  cases operation with
  | choose other =>
    rw [taken] at h
    split at h
    · rename_i hw
      obtain rfl := Option.some.inj h
      exact ⟨hw, rfl, by rw [displayed_choose, if_pos hw]⟩
    · cases h
  | chooseIndex index =>
    exact ⟨waiting_of_choiceAt h, chooseIndex_of_some h, congrArg (Option.bind · p.chosenNode) h⟩
  | _ => cases h

theorem not_waiting_of_taken {choice : Choice} (h : p.taken (.choose choice) = none) :
    p.history.waiting = false := by
  by_contra hw
  rw [taken, if_pos (by simpa using hw)] at h
  cases h

theorem displays_of_taken {operation : Operation} {choice : Choice} (h : p.taken operation = some choice) :
    p.displays operation = .speech choice :: choice.reactions.map .reaction ++
      (p.chosenNode choice).toList.map .node := by
  rw [displays, h, (perform_of_taken h).2.2, Option.elim_some]

theorem displays_of_not_taken {operation : Operation} (h : p.taken operation = none) :
    p.displays operation = (p.displayed operation).toList.map .node := by
  rw [displays, h, Option.elim_none, List.nil_append]

theorem shows_eq_map (operation : Operation) : p.shows operation =
    (p.displays operation).map fun display => p.blockIn (p.perform operation).play.world display.shownNode := by
  rw [shows, perform_shown, turnBlocks, displays, List.map_append, List.map_map]
  congr 1
  cases htaken : p.taken operation with
  | none => rfl
  | some choice =>
    obtain ⟨hw, hperform, _⟩ := perform_of_taken htaken
    rw [Option.elim_some, Option.elim_some, spokenBlocks, List.map_cons, List.map_map, hperform,
      (choose_of_waiting choice hw).1]
    rfl

/-! ## The world after a turn -/

theorem advance_world : p.advance.play.world = (p.world.applyOption p.upcoming).value := by
  cases hw : p.history.waiting with
  | true =>
    rw [advance_of_waiting hw, upcoming_of_waiting hw]
    rfl
  | false =>
    cases h : p.upcoming with
    | none =>
      rw [(advance_of_none hw h).1]
      rfl
    | some n =>
      rw [(advance_of_upcoming h).1]
      rfl

theorem restore_world (snapshot : Json) : (p.restore snapshot).play.world = p.world := by
  cases hread : (History.ofSnapshot p.script.graph p.script.bound snapshot).result with
  | error fault => rw [(restore_of_error hread).1]
  | ok history =>
    obtain ⟨_, ambienceStarted, hplay⟩ := restore_of_ok hread
    rw [hplay]

/-- Whatever is done with a play, its world is changed by what is displayed and by nothing else, unless the host
changes flags. -/
theorem perform_world (operation : Operation) (hflags : operation.isFlags = false) :
    (p.perform operation).play.world = (p.displays operation).foldl Display.carriedOut p.world := by
  cases htaken : p.taken operation with
  | some choice =>
    obtain ⟨hw, hperform, _⟩ := perform_of_taken htaken
    rw [hperform, (choose_of_waiting choice hw).1, displays_of_taken htaken, List.foldl_append, List.foldl_cons,
      Display.foldl_carriedOut_reactions, Display.foldl_carriedOut_node]
    rfl
  | none =>
    rw [displays_of_not_taken htaken, Display.foldl_carriedOut_node]
    cases operation with
    | begin =>
      rw [perform, begin_eq.1]
      exact advance_world
    | advance => exact advance_world
    | choose choice =>
      have hw := not_waiting_of_taken htaken
      rw [perform, choose_of_not_waiting choice hw, displayed_choose, hw]
      rfl
    | chooseIndex index =>
      obtain ⟨_, hrefuse, _⟩ := chooseIndex_of_none htaken
      have hchoice : p.choiceAt index = none := htaken
      rw [perform, hrefuse, displayed_chooseIndex, hchoice]
      rfl
    | startAmbience =>
      obtain ⟨_, hplay⟩ := startAmbience_play (p := p)
      rw [perform, hplay]
      rfl
    | reset =>
      rw [perform, reset]
      split <;> rfl
    | restore snapshot => exact restore_world snapshot
    | flags held => cases hflags

/-! ## The history after a turn -/

theorem advance_blocks :
    p.advance.shown = [] ∧ p.advance.play.history.blocks = p.history.blocks ∨
      p.advance.shown ≠ [] ∧
        p.advance.play.history.blocks = latest p.history.bound (p.history.blocks ++ p.advance.shown) := by
  cases hw : p.history.waiting with
  | true =>
    rw [advance_of_waiting hw]
    exact .inl ⟨rfl, rfl⟩
  | false =>
    cases h : p.upcoming with
    | none =>
      obtain ⟨hplay, hshown, _⟩ := advance_of_none hw h
      rw [hplay, hshown]
      exact .inl ⟨rfl, rfl⟩
    | some n =>
      obtain ⟨hplay, hshown, _⟩ := advance_of_upcoming h
      rw [hplay, hshown, rendered, History.follow_blocks]
      exact .inr ⟨List.cons_ne_nil _ _, rfl⟩

/-- What an operation adds to: the history, without the prompt if that has been answered. -/
def cleared (p : Play) (operation : Operation) : History :=
  if (p.taken operation).isSome then p.answered else p.history

/-- An operation that neither reads a snapshot nor starts over leaves the blocks as they are and displays nothing,
or adds what it displays, after the answered prompt has been taken out. -/
theorem perform_blocks {operation : Operation} (hreset : operation ≠ .reset)
    (hrestore : ∀ snapshot, operation ≠ .restore snapshot) :
    (p.perform operation).shown = [] ∧ (p.perform operation).play.history.blocks = p.history.blocks ∨
      (p.perform operation).shown ≠ [] ∧ (p.perform operation).play.history.blocks =
        latest p.history.bound ((p.cleared operation).blocks ++ (p.perform operation).shown) := by
  cases htaken : p.taken operation with
  | some choice =>
    obtain ⟨hw, hperform, _⟩ := perform_of_taken htaken
    obtain ⟨hplay, hshown, _⟩ := choose_of_waiting choice hw
    rw [hperform, hplay, hshown, cleared, htaken, chosen, History.follow_blocks, History.append_blocks,
      answered_bound]
    exact .inr ⟨chosenBlocks_ne_nil choice, rfl⟩
  | none =>
    rw [cleared, htaken]
    cases operation with
    | begin =>
      obtain ⟨hplay, hshown, _⟩ := begin_eq (p := p)
      rw [perform, hplay, hshown]
      exact advance_blocks
    | advance => exact advance_blocks
    | choose choice =>
      rw [perform, choose_of_not_waiting choice (not_waiting_of_taken htaken)]
      exact .inl ⟨rfl, rfl⟩
    | chooseIndex index =>
      obtain ⟨_, hrefuse, _⟩ := chooseIndex_of_none htaken
      rw [perform, hrefuse]
      exact .inl ⟨rfl, rfl⟩
    | startAmbience =>
      left
      obtain ⟨_, hplay⟩ := startAmbience_play (p := p)
      rw [perform, hplay]
      refine ⟨?_, rfl⟩
      rw [startAmbience]
      split <;> rfl
    | flags held => exact .inl ⟨rfl, rfl⟩
    | reset => exact absurd rfl hreset
    | restore snapshot => exact absurd rfl (hrestore snapshot)

theorem perform_blocks_of_isMove {operation : Operation} (hmove : operation.isMove = true) :
    (p.perform operation).shown = [] ∧ (p.perform operation).play.history.blocks = p.history.blocks ∨
      (p.perform operation).shown ≠ [] ∧ (p.perform operation).play.history.blocks =
        latest p.history.bound ((p.cleared operation).blocks ++ (p.perform operation).shown) := by
  refine perform_blocks ?_ fun snapshot => ?_ <;> rintro rfl <;> exact Bool.false_ne_true hmove

/-! ## The sounds of a turn -/

theorem render_sounds (n : Node) : (p.render n).events.filter Event.isCue = p.script.soundsOf (.node n) := by
  unfold render
  by_cases hprompt : n.isPrompt = true
  · simp [hprompt, Turn.checked, Event.isCue]
  · by_cases hsucc : n.hasSuccessor = true <;> simp [hprompt, hsucc, Turn.checked, Event.isCue]

theorem advance_sounds : p.advance.events.filter Event.isCue =
    (p.upcoming.toList.map Display.node).flatMap p.script.soundsOf := by
  cases hw : p.history.waiting with
  | true =>
    rw [advance_of_waiting hw, upcoming_of_waiting hw]
    rfl
  | false =>
    cases hc : p.history.current with
    | none => simp [advance, hc, idle, upcoming, hw]
    | some position =>
      cases hhere : p.node? with
      | none => simp [advance, hc, hw, hhere, upcoming, Event.isCue]
      | some here =>
        cases hshow : (p.nextToShow here).value with
        | none => simp [advance, hc, hw, hhere, hshow, upcoming]
        | some n => simp [advance, hc, hw, hhere, hshow, upcoming, render_sounds]

theorem begin_sounds : p.begin.events.filter Event.isCue =
    (p.upcoming.toList.map Display.node).flatMap p.script.soundsOf := by
  unfold begin
  split
  · exact advance_sounds
  · exact advance_sounds (p := { p with begun := true })

theorem choose_sounds (choice : Choice) (hw : p.history.waiting = true) :
    (p.choose choice).events.filter Event.isCue =
      ((p.chosenNode choice).toList.map Display.node).flatMap p.script.soundsOf := by
  cases hnext : p.script.graph.find? (p.choiceTarget choice).value <;>
    simp [choose, hw, Turn.checked, chosenNode, hnext]

theorem sounds_eq_flatMap {operation : Operation}
    (hoperation : operation.isMove = true ∨ operation = .startAmbience) :
    p.sounds operation = (p.displays operation).flatMap p.script.soundsOf := by
  cases operation with
  | begin => exact begin_sounds
  | advance => exact advance_sounds
  | chooseIndex index =>
    show (p.chooseIndex index).events.filter Event.isCue = _
    cases htaken : p.taken (.chooseIndex index) with
    | some choice =>
      rw [displays_of_taken htaken, List.flatMap_append,
        Script.flatMap_soundsOf_said, chooseIndex_of_some htaken, choose_sounds choice (waiting_of_choiceAt htaken),
        List.nil_append]
    | none =>
      obtain ⟨_, hrefuse, _⟩ := chooseIndex_of_none htaken
      have hchoice : p.choiceAt index = none := htaken
      rw [displays_of_not_taken htaken, displayed_chooseIndex, hchoice, hrefuse]
      rfl
  | startAmbience => rfl
  | _ => simp [Operation.isMove] at hoperation

/-! ## Runs -/

theorem displays_eq_nil {operation : Operation} (hp : p.history.Consistent p.script.graph)
    (hoperation : operation.isMove = true ∨ operation = .startAmbience)
    (hidle : p.shows operation = [] ∨ (p.perform operation).fault ≠ none) : p.displays operation = [] := by
  rcases hidle with hshows | hfault
  · rw [shows_eq_map] at hshows
    exact List.map_eq_nil_iff.mp hshows
  · cases operation with
    | begin => exact absurd (begin_eq.2.2.trans (advance_consistent hp).2) hfault
    | advance => exact absurd (advance_consistent hp).2 hfault
    | chooseIndex index =>
      cases htaken : p.taken (.chooseIndex index) with
      | some choice =>
        rw [perform, chooseIndex_of_some htaken] at hfault
        exact absurd (choose_consistent hp choice).2 hfault
      | none =>
        have hchoice : p.choiceAt index = none := htaken
        rw [displays_of_not_taken htaken, displayed_chooseIndex, hchoice]
        rfl
    | startAmbience => exact absurd startAmbience_fault hfault
    | _ => simp [Operation.isMove] at hoperation

theorem run_world (operations : List Operation)
    (hflags : ∀ operation ∈ operations, operation.isFlags = false) :
    (p.run operations).world = (p.along displays operations).foldl Display.carriedOut p.world := by
  induction operations generalizing p with
  | nil => rfl
  | cons operation operations ih =>
    have htail : ∀ other ∈ operations, other.isFlags = false := fun other hother =>
      hflags other (List.mem_cons_of_mem _ hother)
    rw [run_cons, along, List.foldl_append, ← perform_world operation (hflags operation List.mem_cons_self)]
    exact ih htail

theorem along_sounds (operations : List Operation)
    (hoperations : ∀ operation ∈ operations, operation.isMove = true ∨ operation = .startAmbience) :
    p.along sounds operations = (p.along displays operations).flatMap p.script.soundsOf := by
  induction operations generalizing p with
  | nil => rfl
  | cons operation operations ih =>
    have htail : ∀ other ∈ operations, other.isMove = true ∨ other = .startAmbience := fun other hother =>
      hoperations other (List.mem_cons_of_mem _ hother)
    have hrest := ih (p := (p.perform operation).play) htail
    rw [perform_script] at hrest
    rw [along, along, List.flatMap_append, sounds_eq_flatMap (hoperations operation List.mem_cons_self), hrest]

/-- The blocks that a run shows are those of its displays, up to who is shown as speaking. -/
theorem along_shows (operations : List Operation) :
    (p.along shows operations).map (fun b => { b with frozen := none }) =
      (p.along displays operations).map fun display => Block.ofNode display.shownNode := by
  induction operations generalizing p with
  | nil => rfl
  | cons operation operations ih =>
    rw [along, along, List.map_append, List.map_append, ih, shows_eq_map, List.map_map]
    congr 1
    refine List.map_congr_left fun display _ => ?_
    obtain ⟨frozen, hblock⟩ :=
      p.blockIn_eq_ofNode (p.perform operation).play.world display.shownNode
    rw [Function.comp_apply, hblock]
    rfl

theorem find?_of_mem_displays {operation : Operation} {n : Node} (h : .node n ∈ p.displays operation) :
    p.script.graph.find? n.id = some n := by
  have hdisplayed : p.displayed operation = some n := by
    rcases List.mem_append.mp h with h | h
    · cases htaken : p.taken operation with
      | none => simp [htaken] at h
      | some choice => simp [htaken] at h
    · simpa using h
  cases htaken : p.taken operation with
  | some choice => exact Graph.find?_id ((perform_of_taken htaken).2.2.symm.trans hdisplayed)
  | none =>
    cases operation with
    | begin | advance => exact find?_of_upcoming hdisplayed
    | _ => simp [displayed, htaken] at hdisplayed

theorem find?_of_mem_along {operations : List Operation} {n : Node} (h : .node n ∈ p.along displays operations) :
    p.script.graph.find? n.id = some n := by
  induction operations generalizing p with
  | nil => cases h
  | cons operation operations ih =>
    rcases List.mem_append.mp h with h | h
    · exact find?_of_mem_displays h
    · have hrest := ih h
      rwa [perform_script] at hrest

/-- After any moves of a new play, and whenever its ambience is started, the world is what comes of carrying out
all that has been displayed, in the order of display: the player's lines, the reactions to them, and nodes of the
graph. Apart from the ambience to start with, the sounds are the cues of the displayed nodes in that order. A call
that shows nothing, or is refused, changes no world and makes no sound. -/
theorem run_carries_out_displays {script : Script} {world : World} {p : Play} {operations : List Operation}
    (hmake : make script world none = .ok p)
    (hoperations : ∀ operation ∈ operations, operation.isMove = true ∨ operation = .startAmbience) :
    ((p.along shows operations).map (fun b => { b with frozen := none }) =
        (p.along displays operations).map fun display => Block.ofNode display.shownNode) ∧
    (∀ n, .node n ∈ p.along displays operations → script.graph.find? n.id = some n) ∧
    (p.run operations).world = (p.along displays operations).foldl Display.carriedOut world ∧
    p.along sounds operations =
      (if script.hasAudio then (p.along displays operations).flatMap Display.cues else []) ∧
    ∀ before operation after, operations = before ++ operation :: after →
      (p.run before).shows operation = [] ∨ ((p.run before).perform operation).fault ≠ none →
        ((p.run before).perform operation).play.world = (p.run before).world ∧
          (p.run before).sounds operation = [] := by
  have hfresh : p.script = script ∧ p.world = world := by
    obtain ⟨_, rfl⟩ := fresh?_eq_some (make_eq_ok hmake).2
    exact ⟨rfl, rfl⟩
  obtain ⟨rfl, rfl⟩ := hfresh
  have hconsistent : p.history.Consistent p.script.graph :=
    (make_consistent (fun h hh => absurd hh.symm (Option.some_ne_none h)) hmake).2
  have hflags : ∀ operation ∈ operations, operation.isFlags = false := by
    intro operation hoperation
    rcases hoperations operation hoperation with hmove | rfl
    · cases operation <;> simp_all [Operation.isMove, Operation.isFlags]
    · rfl
  refine ⟨along_shows operations, fun n => find?_of_mem_along, run_world operations hflags, ?sounds, ?idle⟩
  case sounds => rw [along_sounds operations hoperations, Script.flatMap_soundsOf]
  case idle =>
    rintro before operation after rfl hidle
    have hoperation := hoperations operation (List.mem_append_right _ List.mem_cons_self)
    have hbefore : (p.run before).history.Consistent (p.run before).script.graph := by
      rw [run_script]
      exact run_consistent hconsistent before
    have hnone := displays_eq_nil hbefore hoperation hidle
    refine ⟨?_, ?_⟩
    · rw [perform_world operation (hflags operation (List.mem_append_right _ List.mem_cons_self)), hnone]
      rfl
    · rw [sounds_eq_flatMap hoperation, hnone]
      rfl

/-- A bridge behind a toll. The reaction to paying takes back what paying has set, and a watch that may not be
shown would set it again. -/
def tollPlay : Play :=
  { script :=
      { graph :=
          { nodes :=
              [{ id := some "road", kind := .singleParagraph, ambience := some ⟨"wind", .one⟩,
                 itemsAdded := ["coin", "rope"], next := some "toll" },
               { id := some "toll", kind := .dialogueChoice, next := some "watch",
                 choices :=
                   [{ text := "Pay", effects := [("paid", .bool true)],
                      reactions :=
                        [{ kind := .singleParagraph, itemsRemoved := ["coin"], notesAdded := ["tariff"],
                           effects := [("paid", .bool false)] }] }] },
               { id := some "watch", kind := .singleParagraph, conditions := [("night", .bool true)],
                 notesAdded := ["curfew"], effects := [("paid", .bool true)], next := some "bridge" },
               { id := some "bridge", kind := .singleParagraph, sound := some ⟨"bell", .one⟩,
                 notesAdded := ["crossing"] }] } }
    history := ⟨some "road", [], false, 10⟩
    world := { items := { kind := .items }, notes := { kind := .notes } } }

theorem tollPlay_carries_out_displays :
    let operations : List Operation := [.startAmbience, .begin, .advance, .advance, .chooseIndex 1, .chooseIndex 0]
    let after := (tollPlay.run operations).world
    make tollPlay.script tollPlay.world none = .ok tollPlay ∧
      (tollPlay.along shows operations).length = 5 ∧
      after = (tollPlay.along displays operations).foldl Display.carriedOut tollPlay.world ∧
      after.flags = .ofValues [("paid", .bool false)] ∧ after.items.held = ["rope"] ∧
      after.notes.held = ["tariff", "crossing"] ∧
      tollPlay.along sounds operations = [.ambience ⟨"wind", .one⟩, .sound ⟨"bell", .one⟩] := by
  intro operations after
  have hmake : make tollPlay.script tollPlay.world none = .ok tollPlay := rfl
  have hoperations : ∀ operation ∈ operations, operation.isMove = true ∨ operation = .startAmbience := by
    simp [operations, Operation.isMove]
  obtain ⟨_, _, hworld, hsounds, _⟩ := run_carries_out_displays hmake hoperations
  refine ⟨hmake, by decide +kernel, hworld, ?_, by decide +kernel, by decide +kernel, ?_⟩
  · with_unfolding_all rfl
  · rw [hsounds]
    with_unfolding_all rfl

end Play
end BranchingStory
