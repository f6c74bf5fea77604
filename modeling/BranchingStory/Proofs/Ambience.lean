import BranchingStory.Proofs.Effects
import BranchingStory.Proofs.Snapshot
import Mathlib.Data.List.Basic

/-!
# The ambience that is resumed

While a story goes on, an ambience plays until another is displayed. A play that goes on from a snapshot has to
find out which one it was, and all it has is the blocks of the history, of which the bound lets only the latest
stay and an answered prompt is taken out. So what is resumed is the ambience that was last asked for, unless its
node is no longer in the history, or a reaction is in it under the id of a node with an ambience, or nothing was
asked for because the entry would have brought its own ambience and has never been displayed.
-/

namespace BranchingStory

def Event.ambience? : Event → Option Cue
  | .ambience cue => some cue
  | _ => none

/-! ## The last of a list in what is kept of it -/

/-- Where the last item of all is kept, it is the last that is kept. -/
def LastKept {α : Type} (all kept : List α) : Prop :=
  ∀ last, all.getLast? = some last → last ∉ kept ∨ kept.getLast? = some last

namespace LastKept

variable {α : Type} {all kept : List α}

theorem suffix (h : LastKept all kept) {fewer : List α} (hsuffix : fewer <:+ kept) : LastKept all fewer := by
  obtain ⟨dropped, rfl⟩ := hsuffix
  intro last hlast
  rcases h last hlast with hnot | hkept
  · exact .inl fun hmem => hnot (List.mem_append_right dropped hmem)
  · cases fewer with
    | nil => exact .inl List.not_mem_nil
    | cons first rest =>
      rw [List.getLast?_append_cons] at hkept
      exact .inr hkept

theorem append (h : LastKept all kept) (new : List α) : LastKept (all ++ new) (kept ++ new) := by
  intro last hlast
  cases new with
  | nil =>
    rw [List.append_nil] at hlast ⊢
    exact h last hlast
  | cons first rest =>
    rw [List.getLast?_append_cons] at hlast ⊢
    exact .inr hlast

/-- The first item of a kind is taken out. If that is the last item, there is no other of its kind. -/
theorem eraseP (h : LastKept all kept) (kind : α → Bool) : LastKept all (kept.eraseP kind) := by
  intro last hlast
  rcases h last hlast with hnot | hkept
  · exact .inl fun hmem => hnot (List.mem_of_mem_eraseP hmem)
  obtain ⟨before, rfl⟩ := List.getLast?_eq_some_iff.mp hkept
  by_cases hbefore : ∃ item ∈ before, kind item = true
  · obtain ⟨item, hitem, hkind⟩ := hbefore
    rw [List.eraseP_append_left hkind _ hitem]
    exact .inr List.getLast?_concat
  · have hnone : ∀ item ∈ before, ¬ kind item = true := fun item hitem hkind => hbefore ⟨item, hitem, hkind⟩
    rw [List.eraseP_append_right _ hnone]
    by_cases hkind : kind last = true
    · left
      rw [List.eraseP_cons_of_pos hkind, List.append_nil]
      exact fun hmem => hnone last hmem hkind
    · right
      rw [List.eraseP_cons_of_neg hkind]
      exact List.getLast?_concat

end LastKept

theorem filterMap_eraseP {α β : Type} {select : α → Option β} {kind : α → Bool} {kind' : β → Bool}
    (hkind : ∀ a b, select a = some b → kind' b = kind a) (items : List α) :
    (items.eraseP kind).filterMap select = items.filterMap select ∨
      (items.eraseP kind).filterMap select = (items.filterMap select).eraseP kind' := by
  induction items with
  | nil => exact .inl rfl
  | cons a items ih =>
    cases hselect : select a with
    | none =>
      by_cases ha : kind a = true
      · rw [List.eraseP_cons_of_pos ha, List.filterMap_cons_none hselect]
        exact .inl rfl
      · rw [List.eraseP_cons_of_neg ha, List.filterMap_cons_none hselect, List.filterMap_cons_none hselect]
        exact ih
    | some b =>
      have hb := hkind a b hselect
      by_cases ha : kind a = true
      · rw [List.eraseP_cons_of_pos ha, List.filterMap_cons_some hselect, List.eraseP_cons_of_pos (hb.trans ha)]
        exact .inr rfl
      · rw [List.eraseP_cons_of_neg ha, List.filterMap_cons_some hselect, List.filterMap_cons_some hselect,
          List.eraseP_cons_of_neg (fun hb' => ha (hb.symm.trans hb'))]
        exact ih.imp (congrArg (b :: ·)) (congrArg (b :: ·))

/-! ## Displays with an ambience -/

namespace Display

/-- The id under which a display is in the history. -/
def blockId (display : Display) : Option String := display.shownNode.id

/-- Drop the earliest display with this id, if there is one. -/
def removeFirst (id : Option String) (displays : List Display) : List Display :=
  match nonEmpty? id with
  | none => displays
  | some id => displays.eraseP fun display => display.blockId == some id

/-- The displayed node of the graph, if it has an ambience. -/
def ambient : Display → Option Node
  | node n => if n.ambience.isSome then some n else none
  | speech _ | reaction _ => none

def ambience (display : Display) : Option Cue := display.ambient.bind Node.ambience

theorem ambient_eq_some {display : Display} {n : Node} (h : display.ambient = some n) :
    display = .node n ∧ n.ambience.isSome = true := by
  cases display with
  | node m =>
    rw [ambient] at h
    split at h
    · obtain rfl := Option.some.inj h
      exact ⟨rfl, by assumption⟩
    · cases h
  | _ => cases h

theorem ambience_node (n : Node) : (node n).ambience = n.ambience := by
  rw [ambience, ambient]
  cases h : n.ambience <;> simp [h]

theorem filterMap_ambience?_cues (display : Display) :
    display.cues.filterMap Event.ambience? = display.ambience.toList := by
  cases display with
  | node n =>
    rw [ambience_node, cues]
    cases n.ambience <;> cases n.sound <;> rfl
  | _ => rfl

theorem getLast?_ambience (displays : List Display) :
    (displays.filterMap ambience).getLast? = (displays.filterMap ambient).getLast?.bind Node.ambience := by
  have hselect : displays.filterMap ambience = (displays.filterMap ambient).filterMap Node.ambience :=
    (List.filterMap_filterMap).symm
  rw [hselect]
  cases hlast : (displays.filterMap ambient).getLast? with
  | none =>
    rw [List.getLast?_eq_none_iff.mp hlast]
    rfl
  | some last =>
    obtain ⟨before, hbefore⟩ := List.getLast?_eq_some_iff.mp hlast
    obtain ⟨_, _, hdisplay⟩ := List.mem_filterMap.mp (List.mem_of_getLast? hlast)
    obtain ⟨cue, hcue⟩ := Option.isSome_iff_exists.mp (ambient_eq_some hdisplay).2
    rw [hbefore, List.filterMap_append, List.filterMap_cons_some hcue, List.filterMap_nil, List.getLast?_concat,
      Option.bind_some, hcue]

end Display

/-! ## The history and what it was displayed for -/

/-- Which of all displays the blocks of a history stand for. Where the last of them with an ambience is there, it
is the last with an ambience that is there. -/
structure Stands (all kept : List Display) (blocks : List Block) : Prop where
  ids : kept.map Display.blockId = blocks.map Block.id
  mem : ∀ display ∈ kept, display ∈ all
  last : LastKept (all.filterMap Display.ambient) (kept.filterMap Display.ambient)

namespace Stands

variable {all kept : List Display} {blocks : List Block}

theorem length_eq (h : Stands all kept blocks) : kept.length = blocks.length := by
  simpa using congrArg List.length h.ids

theorem latest (h : Stands all kept blocks) (bound : Nat) :
    Stands all (latest bound kept) (BranchingStory.latest bound blocks) := by
  refine ⟨?_, fun display hdisplay => h.mem display (mem_of_mem_latest hdisplay), ?_⟩
  · rw [← latest_map, h.ids, latest_map]
  · exact h.last.suffix ((List.drop_suffix _ _).filterMap _)

theorem removeFirst {history : History} (h : Stands all kept history.blocks) (id : Option String) :
    Stands all (Display.removeFirst id kept) (history.removeFirst id).blocks := by
  cases hid : nonEmpty? id with
  | none =>
    rw [History.removeFirst, Display.removeFirst, hid]
    exact h
  | some s =>
    rw [History.removeFirst, Display.removeFirst, hid]
    refine ⟨?_, ?_, ?_⟩
    · have hids : (kept.map Display.blockId).eraseP (· == some s) =
          (history.blocks.map Block.id).eraseP (· == some s) := by rw [h.ids]
      rwa [List.eraseP_map, List.eraseP_map] at hids
    · exact fun display hdisplay => h.mem display (List.mem_of_mem_eraseP hdisplay)
    · have hkind : ∀ display n, display.ambient = some n →
          (n.id == some s) = (Display.blockId display == some s) := by
        intro display n hn
        rw [(Display.ambient_eq_some hn).1]
        rfl
      rcases filterMap_eraseP hkind kept with hsame | herase
      · rw [hsame]
        exact h.last
      · rw [herase]
        exact h.last.eraseP _

theorem append (h : Stands all kept blocks) {displays : List Display} {shown : List Block}
    (hshown : displays.map Display.blockId = shown.map Block.id) :
    Stands (all ++ displays) (kept ++ displays) (blocks ++ shown) := by
  refine ⟨?_, ?_, ?_⟩
  · rw [List.map_append, List.map_append, h.ids, hshown]
  · intro display hdisplay
    exact (List.mem_append.mp hdisplay).elim (fun hold => List.mem_append_left _ (h.mem display hold))
      (List.mem_append_right _)
  · rw [List.filterMap_append, List.filterMap_append]
    exact h.last.append _

end Stands

namespace Play

variable {p : Play}

theorem displays_map_blockId (operation : Operation) :
    (p.displays operation).map Display.blockId = (p.perform operation).shown.map Block.id := by
  have hshows : (p.perform operation).shown = _ := shows_eq_map operation
  rw [hshows, List.map_map]
  exact List.map_congr_left fun display _ => (blockIn_id _ display.shownNode).symm

/-- The displays that an operation leaves in the history before it adds its own: all but the answered prompt. -/
def unanswered (p : Play) (kept : List Display) (operation : Operation) : List Display :=
  if (p.taken operation).isSome then p.node?.elim kept fun prompt => Display.removeFirst prompt.id kept else kept

/-- The displays that are in the history after some operations, where `kept` are in it before them. -/
def staying (p : Play) (kept : List Display) : List Operation → List Display
  | [] => kept
  | operation :: operations => (p.perform operation).play.staying
      (latest p.history.bound (p.unanswered kept operation ++ p.displays operation)) operations

theorem unanswered_of_displays_eq_nil {kept : List Display} {operation : Operation}
    (hnone : p.displays operation = []) : p.unanswered kept operation = kept := by
  cases htaken : p.taken operation with
  | none => rw [unanswered, htaken, Option.isSome_none, if_neg Bool.false_ne_true]
  | some choice =>
    rw [displays_of_taken htaken] at hnone
    cases hnone

theorem perform_stands {all kept : List Display} (h : Stands all kept p.history.blocks)
    (hbounded : p.history.blocks.length ≤ p.history.bound) {operation : Operation}
    (hmove : operation.isMove = true) :
    Stands (all ++ p.displays operation)
      (latest p.history.bound (p.unanswered kept operation ++ p.displays operation))
      (p.perform operation).play.history.blocks := by
  have hids := displays_map_blockId (p := p) operation
  rcases perform_blocks_of_isMove (p := p) hmove with ⟨hnone, hsame⟩ | ⟨_, hblocks⟩
  · rw [hnone, List.map_nil, List.map_eq_nil_iff] at hids
    rw [unanswered_of_displays_eq_nil hids, hids, hsame, List.append_nil, List.append_nil,
      latest_eq_self (h.length_eq ▸ hbounded)]
    exact h
  · have hcleared : Stands all (p.unanswered kept operation) (p.cleared operation).blocks := by
      unfold cleared answered unanswered
      split
      · cases p.node? with
        | none => exact h
        | some prompt => exact h.removeFirst prompt.id
      · exact h
    rw [hblocks]
    exact (hcleared.append hids).latest p.history.bound

/-- At any point of a run, the blocks of the history stand for the displays that have stayed in it. -/
theorem run_stands {all kept : List Display} (h : Stands all kept p.history.blocks)
    (hp : p.history.Consistent p.script.graph) {operations : List Operation}
    (hmoves : ∀ operation ∈ operations, operation.isMove = true) :
    Stands (all ++ p.along displays operations) (p.staying kept operations) (p.run operations).history.blocks := by
  induction operations generalizing p all kept with
  | nil =>
    rw [along, List.append_nil]
    exact h
  | cons operation operations ih =>
    rw [along, ← List.append_assoc]
    refine ih (perform_stands h hp.bounded (hmoves operation List.mem_cons_self)) ?_
      fun other hother => hmoves other (List.mem_cons_of_mem _ hother)
    rw [perform_script]
    exact perform_consistent hp operation

/-! ## Whether anything has been displayed -/

theorem perform_bound (hp : p.history.bound = p.script.bound.toNat) (operation : Operation) :
    (p.perform operation).play.history.bound = p.script.bound.toNat := by
  refine perform_induction (P := fun q => q.history.bound = p.script.bound.toNat) operation hp ?mark hp ?shows
    ?chosen ?reset ?restore ?flags
  case mark => exact fun _ _ _ hq => hq
  case shows =>
    intro n _
    rw [rendered, History.follow_bound, History.append_bound, hp]
  case chosen =>
    intro choice
    rw [chosen, History.follow_bound, History.append_bound, answered_bound, hp]
  case reset =>
    intro history hmake
    rw [(History.make?_nil_eq_some.mp hmake).2]
  case restore =>
    intro snapshot history hread
    obtain ⟨_, _, hmake⟩ := History.exists_of_ofSnapshot_eq_ok hread
    rw [(History.make?_eq_some.mp hmake).2]
  case flags => exact fun _ _ => hp

theorem run_bound (hp : p.history.bound = p.script.bound.toNat) (operations : List Operation) :
    (p.run operations).history.bound = p.script.bound.toNat := by
  have hrun : (p.run operations).script = p.script ∧ (p.run operations).history.bound = p.script.bound.toNat := by
    refine run_induction (P := fun q => q.script = p.script ∧ q.history.bound = p.script.bound.toNat) ⟨rfl, hp⟩ ?_
    rintro q operation _ ⟨hscript, hq⟩
    rw [← hscript] at hq ⊢
    exact ⟨perform_script operation, perform_bound hq operation⟩
  exact hrun.2

theorem latest_append_ne_nil {α : Type} {bound : Nat} (hroom : 1 ≤ bound) (old : List α) {new : List α}
    (hnew : new ≠ []) : latest bound (old ++ new) ≠ [] := by
  have hpos := List.length_pos_iff.mpr hnew
  refine List.ne_nil_of_length_pos ?_
  rw [latest, List.length_drop, List.length_append]
  omega

theorem perform_blocks_ne_nil (hroom : 1 ≤ p.history.bound) {operation : Operation}
    (hmove : operation.isMove = true) (h : p.displays operation ≠ [] ∨ p.history.blocks ≠ []) :
    (p.perform operation).play.history.blocks ≠ [] := by
  have hids := displays_map_blockId (p := p) operation
  rcases perform_blocks_of_isMove (p := p) hmove with ⟨hnone, hsame⟩ | ⟨hshown, hblocks⟩
  · rw [hnone, List.map_nil, List.map_eq_nil_iff] at hids
    rw [hsame]
    exact h.resolve_left (not_not_intro hids)
  · rw [hblocks]
    exact latest_append_ne_nil hroom _ hshown

/-- Where a move displays nothing, the history stays as it is, and the story where it is, unless it ends. -/
theorem perform_of_displays_eq_nil {operation : Operation} (hmove : operation.isMove = true)
    (hnone : p.displays operation = []) :
    (p.perform operation).play.history.blocks = p.history.blocks ∧
      ((p.perform operation).play.history.current = p.history.current ∨
        (p.perform operation).play.history.current = none) := by
  have hadvance : p.upcoming = none → p.advance.play.history.blocks = p.history.blocks ∧
      (p.advance.play.history.current = p.history.current ∨ p.advance.play.history.current = none) := by
    intro hupcoming
    cases hw : p.history.waiting with
    | true =>
      rw [advance_of_waiting hw]
      exact ⟨rfl, .inl rfl⟩
    | false =>
      rw [(advance_of_none hw hupcoming).1]
      exact ⟨rfl, .inr rfl⟩
  cases operation with
  | begin =>
    rw [perform, begin_eq.1]
    exact hadvance (by simpa [displays, taken, displayed] using hnone)
  | advance => exact hadvance (by simpa [displays, taken, displayed] using hnone)
  | chooseIndex index =>
    cases htaken : p.taken (.chooseIndex index) with
    | some choice =>
      rw [displays_of_taken htaken] at hnone
      cases hnone
    | none =>
      obtain ⟨_, hrefuse, _⟩ := chooseIndex_of_none htaken
      rw [perform, hrefuse]
      exact ⟨rfl, .inl rfl⟩
  | _ => cases hmove

theorem run_blocks_ne_nil (hbound : p.history.bound = p.script.bound.toNat) (hroom : 1 ≤ p.script.bound)
    {operations : List Operation} (hmoves : ∀ operation ∈ operations, operation.isMove = true)
    (h : p.along displays operations ≠ [] ∨ p.history.blocks ≠ []) : (p.run operations).history.blocks ≠ [] := by
  induction operations generalizing p with
  | nil => exact h.resolve_left (not_not_intro rfl)
  | cons operation operations ih =>
    have hmove := hmoves operation List.mem_cons_self
    have hnext := perform_script (p := p) operation
    refine ih (by rw [hnext, perform_bound hbound]) (hnext ▸ hroom)
      (fun other hother => hmoves other (List.mem_cons_of_mem _ hother)) ?_
    rw [along] at h
    by_cases hlater : (p.perform operation).play.along displays operations = []
    · rw [hlater, List.append_nil] at h
      exact .inr (perform_blocks_ne_nil (by omega) hmove h)
    · exact .inl hlater

theorem run_of_displays_eq_nil {operations : List Operation}
    (hmoves : ∀ operation ∈ operations, operation.isMove = true) (hnone : p.along displays operations = []) :
    (p.run operations).history.blocks = p.history.blocks ∧
      ((p.run operations).history.current = p.history.current ∨ (p.run operations).history.current = none) := by
  induction operations generalizing p with
  | nil => exact ⟨rfl, .inl rfl⟩
  | cons operation operations ih =>
    obtain ⟨hfirst, hlater⟩ := List.append_eq_nil_iff.mp hnone
    obtain ⟨hblocks, hcurrent⟩ := perform_of_displays_eq_nil (hmoves operation List.mem_cons_self) hfirst
    obtain ⟨hblocks', hcurrent'⟩ := ih (fun other hother => hmoves other (List.mem_cons_of_mem _ hother)) hlater
    refine ⟨hblocks'.trans hblocks, ?_⟩
    rcases hcurrent' with hsame | hended
    · exact hcurrent.imp hsame.trans hsame.trans
    · exact .inr hended

/-! ## Ambience that is asked for -/

def ambiences (p : Play) (operation : Operation) : List Cue :=
  (p.perform operation).events.filterMap Event.ambience?

theorem filterMap_ambience?_filter_isCue (events : List Event) :
    (events.filter Event.isCue).filterMap Event.ambience? = events.filterMap Event.ambience? := by
  rw [List.filterMap_filter]
  exact List.filterMap_congr fun event _ => by cases event <;> rfl

theorem ambiences_of_move (haudio : p.script.hasAudio = true) {operation : Operation}
    (hmove : operation.isMove = true) :
    p.ambiences operation = (p.displays operation).filterMap Display.ambience := by
  have hsounds : (p.perform operation).events.filter Event.isCue = p.sounds operation := by
    cases operation <;> first | rfl | cases hmove
  rw [ambiences, ← filterMap_ambience?_filter_isCue, hsounds, sounds_eq_flatMap (.inl hmove),
    Script.flatMap_soundsOf, if_pos haudio, List.filterMap_flatMap, List.filterMap_eq_flatMap_toList]
  exact congrArg (List.flatMap · _) (funext Display.filterMap_ambience?_cues)

theorem along_ambiences (haudio : p.script.hasAudio = true) {operations : List Operation}
    (hmoves : ∀ operation ∈ operations, operation.isMove = true) :
    p.along ambiences operations = (p.along displays operations).filterMap Display.ambience := by
  induction operations generalizing p with
  | nil => rfl
  | cons operation operations ih =>
    have haudio' : (p.perform operation).play.script.hasAudio = true := by rwa [perform_script]
    rw [along, along, List.filterMap_append, ambiences_of_move haudio (hmoves operation List.mem_cons_self),
      ih haudio' fun other hother => hmoves other (List.mem_cons_of_mem _ hother)]

theorem startAmbience_events (haudio : p.script.hasAudio = true) (hstarted : p.ambienceStarted = false) :
    p.startAmbience.events = (p.openingAmbience.map .ambience).toList := by
  simp [startAmbience, haudio, hstarted]

theorem startAmbience_same : p.startAmbience.play.script = p.script ∧ p.startAmbience.play.history = p.history ∧
    p.startAmbience.play.openingAmbience = p.openingAmbience := by
  obtain ⟨_, hplay⟩ := startAmbience_play (p := p)
  rw [hplay]
  exact ⟨rfl, rfl, rfl⟩

/-- A play that starts its ambience and then moves has asked last for the last ambience that it has displayed, or for
the one to start with. -/
theorem getLast?_ambiences (haudio : p.script.hasAudio = true) (hstarted : p.ambienceStarted = false)
    {moves : List Operation} (hmoves : ∀ operation ∈ moves, operation.isMove = true) :
    (p.along ambiences (.startAmbience :: moves)).getLast? =
      (((p.startAmbience.play.along displays moves).filterMap Display.ambient).getLast?.bind Node.ambience).or
        p.openingAmbience := by
  have hplayer : p.startAmbience.play.script.hasAudio = true := by rw [startAmbience_same.1, haudio]
  have hfirst : p.ambiences .startAmbience = p.openingAmbience.toList := by
    rw [ambiences, perform, startAmbience_events haudio hstarted]
    cases p.openingAmbience <;> rfl
  calc (p.along ambiences (.startAmbience :: moves)).getLast?
    _ = (p.ambiences .startAmbience ++ p.startAmbience.play.along ambiences moves).getLast? := rfl
    _ = _ := by
      rw [hfirst, along_ambiences hplayer hmoves, List.getLast?_append, Display.getLast?_ambience]
      cases p.openingAmbience <;> rfl

theorem restore_sounds {snapshot : Json} {history : History} (haudio : p.script.hasAudio = true)
    (hread : (History.ofSnapshot p.script.graph p.script.bound snapshot).result = .ok history) :
    (p.restore snapshot).events.filter Event.isCue =
      (({ p with history } : Play).openingAmbience.map .ambience).toList := by
  have hfault : ({ p with history } : Play).fault? = none := fault?_eq_none (ofSnapshot_consistent hread)
  have hevents := startAmbience_events (p := { p with history, begun := true, ambienceStarted := false }) haudio rfl
  have hcues : ((({ p with history } : Play).openingAmbience.map Event.ambience).toList).filter Event.isCue =
      (({ p with history } : Play).openingAmbience.map Event.ambience).toList := by
    cases ({ p with history } : Play).openingAmbience <;> rfl
  simp only [restore, restoreFrom, hread, hfault, hevents, List.filter_append, filter_isCue_noticeEvents, List.nil_append]
  exact (List.append_nil _).trans hcues

/-- Where every block leads to the node that it was displayed for, the latest ambience of a history is that of the
last display with an ambience that is in it. -/
theorem latestAmbience_of_stands {script : Script} {all kept : List Display} {blocks : List Block}
    (h : Stands all kept blocks)
    (hfind : ∀ display ∈ kept, (script.graph.find? display.blockId).bind Node.ambience = display.ambience) :
    script.latestAmbience blocks =
      ((kept.filterMap Display.ambient).getLast?.bind Node.ambience).or script.graph.initialAmbience := by
  have hids : (blocks.reverse.findSome? fun b => (script.graph.find? b.id).bind Node.ambience) =
      (kept.filterMap Display.ambience).getLast? := by
    calc (blocks.reverse.findSome? fun b => (script.graph.find? b.id).bind Node.ambience)
      _ = (blocks.map Block.id).reverse.findSome? fun id => (script.graph.find? id).bind Node.ambience := by
        rw [← List.map_reverse, List.findSome?_map]
        rfl
      _ = kept.reverse.findSome? fun display => (script.graph.find? display.blockId).bind Node.ambience := by
        rw [← h.ids, ← List.map_reverse, List.findSome?_map]
        rfl
      _ = (kept.filterMap Display.ambience).getLast? := by
        rw [← List.getLast?_filterMap, List.filterMap_congr hfind]
  rw [Script.latestAmbience, hids, Display.getLast?_ambience]

/-- The node that was displayed last with an ambience is not in the history: it was an answered prompt, or there
was no room for it any more. -/
def Forgotten (displays : List Display) (blocks : List Block) : Prop :=
  ∃ n, (displays.filterMap Display.ambient).getLast? = some n ∧ ∀ b ∈ blocks, b.id ≠ n.id

/-- One of the displays in the history is a reaction under the id of a node of the graph that has an ambience. -/
def Borrowed (g : Graph) (kept : List Display) : Prop :=
  ∃ n, .reaction n ∈ kept ∧ ((g.find? n.id).bind Node.ambience).isSome = true

theorem ambience_of_not_borrowed {g : Graph} {all kept : List Display} {blocks : List Block}
    (h : Stands all kept blocks) (hfind : ∀ n, .node n ∈ all → g.find? n.id = some n)
    (hborrowed : ¬ Borrowed g kept) {display : Display} (hdisplay : display ∈ kept) :
    (g.find? display.blockId).bind Node.ambience = display.ambience := by
  cases display with
  | speech choice => rfl
  | reaction n =>
    have hnone : ¬ ((g.find? n.id).bind Node.ambience).isSome = true := fun hsome =>
      hborrowed ⟨n, hdisplay, hsome⟩
    exact Option.not_isSome_iff_eq_none.mp hnone
  | node n =>
    have hn : g.find? (Display.node n).blockId = some n := hfind n (h.mem _ hdisplay)
    rw [hn, Display.ambience_node]
    rfl

theorem mem_ambient_of_id {g : Graph} {all kept : List Display} {blocks : List Block}
    (h : Stands all kept blocks) (hfind : ∀ n, .node n ∈ all → g.find? n.id = some n)
    (hborrowed : ¬ Borrowed g kept) {n : Node} (hn : n ∈ all.filterMap Display.ambient) {b : Block}
    (hb : b ∈ blocks) (hid : b.id = n.id) : n ∈ kept.filterMap Display.ambient := by
  obtain ⟨_, hall, hambient⟩ := List.mem_filterMap.mp hn
  obtain ⟨rfl, hambience⟩ := Display.ambient_eq_some hambient
  have hfound := hfind n hall
  have hmem : n.id ∈ kept.map Display.blockId := h.ids ▸ hid ▸ List.mem_map_of_mem hb
  obtain ⟨display, hdisplay, hsame⟩ := List.mem_map.mp hmem
  refine List.mem_filterMap.mpr ⟨display, hdisplay, ?_⟩
  have hown := ambience_of_not_borrowed h hfind hborrowed hdisplay
  rw [hsame, hfound, Option.bind_some] at hown
  cases display with
  | node other =>
    have hother := hfind other (h.mem _ hdisplay)
    rw [show other.id = n.id from hsame, hfound] at hother
    obtain rfl := Option.some.inj hother
    exact hambient
  | speech choice =>
    rw [hown] at hambience
    cases hambience
  | reaction other =>
    rw [hown] at hambience
    cases hambience

/-- The latest ambience of a history is the last that was displayed, unless that has been forgotten or another is
borrowed. -/
theorem latestAmbience_eq_or {script : Script} {all kept : List Display} {blocks : List Block}
    (h : Stands all kept blocks) (hfind : ∀ n, .node n ∈ all → script.graph.find? n.id = some n) :
    script.latestAmbience blocks =
        ((all.filterMap Display.ambient).getLast?.bind Node.ambience).or script.graph.initialAmbience ∨
      Forgotten all blocks ∨ Borrowed script.graph kept := by
  by_cases hborrowed : Borrowed script.graph kept
  · exact .inr (.inr hborrowed)
  rw [latestAmbience_of_stands h fun _ => ambience_of_not_borrowed h hfind hborrowed]
  cases hlast : (all.filterMap Display.ambient).getLast? with
  | none =>
    left
    have hkept : kept.filterMap Display.ambient = [] := by
      rw [List.filterMap_eq_nil_iff]
      intro display hdisplay
      exact List.filterMap_eq_nil_iff.mp (List.getLast?_eq_none_iff.mp hlast) display (h.mem display hdisplay)
    rw [hkept]
    rfl
  | some last =>
    rcases h.last last hlast with hgone | hkept
    · right; left
      refine ⟨last, hlast, fun b hb hid => hgone ?_⟩
      exact mem_ambient_of_id h hfind hborrowed (List.mem_of_getLast? hlast) hb hid
    · rw [hkept]
      exact .inl rfl

theorem openingAmbience_of_nil (hblocks : p.history.blocks = []) :
    p.openingAmbience = if (p.node?.bind Node.ambience).isSome then none else p.script.graph.initialAmbience := by
  rw [openingAmbience, hblocks]
  rfl

theorem openingAmbience_of_ne_nil (hblocks : p.history.blocks ≠ []) :
    p.openingAmbience = p.script.latestAmbience p.history.blocks := by
  rw [openingAmbience, if_neg (by simpa using hblocks)]

theorem stands_normal {all kept : List Display} {blocks : List Block} (h : Stands all kept blocks) :
    Stands all kept (blocks.map Block.normal) := by
  refine ⟨?_, h.mem, h.last⟩
  rw [h.ids, List.map_map]
  rfl

/-- A play goes on over what is left of the history of another play after some moves. -/
structure GoesOn (p : Play) (moves : List Operation) (bound : Nat) (q : Play) : Prop where
  graph : q.script.graph = p.script.graph
  current : q.history.current = (p.run moves).history.current
  blocks : q.history.blocks =
    (latest bound (latest (p.run moves).history.bound (p.run moves).history.blocks)).map Block.normal

namespace GoesOn

variable {q : Play} {bound : Nat} {moves : List Operation}

theorem openingAmbience_of_nothing (h : GoesOn p moves bound q) (hnothing : p.history.blocks = [])
    (hmoves : ∀ operation ∈ moves, operation.isMove = true) (hnone : p.along displays moves = []) :
    q.openingAmbience = p.openingAmbience ∨
      q.openingAmbience = p.script.graph.initialAmbience ∧ (p.run moves).history.current = none := by
  obtain ⟨hsame, hstays⟩ := run_of_displays_eq_nil hmoves hnone
  have hempty : q.history.blocks = [] := by
    rw [h.blocks, hsame, hnothing]
    simp only [latest, List.drop_nil, List.map_nil]
  have hresumed := openingAmbience_of_nil hempty
  rcases hstays with hentry | hended
  · left
    have hnode : q.node? = p.node? := by rw [node?, node?, h.current, hentry, h.graph]
    rw [hresumed, hnode, h.graph, ← openingAmbience_of_nil hnothing]
  · right
    have hnode : q.node? = none := node?_of_ended (h.current.trans hended)
    rw [hnode, h.graph] at hresumed
    exact ⟨hresumed, hended⟩

theorem blocks_ne_nil (h : GoesOn p moves bound q) (hkeeps : p.history.bound = p.script.bound.toNat)
    (hroom : 1 ≤ p.script.bound) (hbound : 1 ≤ bound) (hmoves : ∀ operation ∈ moves, operation.isMove = true)
    (hsome : p.along displays moves ≠ []) : q.history.blocks ≠ [] := by
  have hrun := run_blocks_ne_nil hkeeps hroom hmoves (.inl hsome)
  have hrunBound : 1 ≤ (p.run moves).history.bound := by
    rw [run_bound hkeeps]
    omega
  rw [h.blocks]
  refine mt List.map_eq_nil_iff.mp ?_
  exact latest_append_ne_nil hbound [] (latest_append_ne_nil hrunBound [] hrun)

theorem stands (h : GoesOn p moves bound q) (hnothing : p.history.blocks = [])
    (hp : p.history.Consistent p.script.graph) (hmoves : ∀ operation ∈ moves, operation.isMove = true) :
    Stands (p.along displays moves) (latest bound (p.staying [] moves)) q.history.blocks := by
  have hstart : Stands [] [] p.history.blocks :=
    ⟨by rw [hnothing]; rfl, fun _ h => absurd h List.not_mem_nil, fun _ h => absurd h.symm (Option.some_ne_none _)⟩
  have hstands := run_stands hstart hp hmoves
  rw [h.blocks, latest_eq_self (run_consistent hp moves).bounded]
  exact stands_normal (hstands.latest bound)

theorem openingAmbience_of_displays (h : GoesOn p moves bound q) (hnothing : p.history.blocks = [])
    (hp : p.history.Consistent p.script.graph) (hmoves : ∀ operation ∈ moves, operation.isMove = true)
    (hne : q.history.blocks ≠ []) :
    q.openingAmbience = (((p.along displays moves).filterMap Display.ambient).getLast?.bind Node.ambience).or
        p.script.graph.initialAmbience ∨
      Forgotten (p.along displays moves) q.history.blocks ∨
      Borrowed p.script.graph (latest bound (p.staying [] moves)) := by
  rw [openingAmbience_of_ne_nil hne, Script.latestAmbience, h.graph]
  exact latestAmbience_eq_or (h.stands hnothing hp hmoves) fun n hn => find?_of_mem_along hn

/-- A play goes on over what is left of the history of another, which had nothing in its history and then moved. What
is resumed is the last ambience that the moves displayed, or else what the other play had to start with, unless the
last ambience has been forgotten or another is borrowed, or the initial ambience is resumed after none has been
displayed. -/
theorem openingAmbience (h : GoesOn p moves bound q) (hnothing : p.history.blocks = [])
    (hp : p.history.Consistent p.script.graph) (hkeeps : p.history.bound = p.script.bound.toNat)
    (hroom : 1 ≤ p.script.bound) (hbound : 1 ≤ bound)
    (hmoves : ∀ operation ∈ moves, operation.isMove = true) :
    q.openingAmbience =
        (((p.along displays moves).filterMap Display.ambient).getLast?.bind Node.ambience).or p.openingAmbience ∨
      Forgotten (p.along displays moves) q.history.blocks ∨
      Borrowed p.script.graph (latest bound (p.staying [] moves)) ∨
      (p.along displays moves).filterMap Display.ambient = [] ∧
        q.openingAmbience = p.script.graph.initialAmbience ∧
        (p.along displays moves ≠ [] ∨ (p.run moves).history.current = none) := by
  by_cases hnone : p.along displays moves = []
  · rw [hnone]
    rcases h.openingAmbience_of_nothing hnothing hmoves hnone with hsame | ⟨hinitial, hended⟩
    · exact .inl hsame
    · exact .inr (.inr (.inr ⟨rfl, hinitial, .inr hended⟩))
  · have hne := h.blocks_ne_nil hkeeps hroom hbound hmoves hnone
    rcases h.openingAmbience_of_displays hnothing hp hmoves hne with heq | hforgotten | hborrowed
    · cases hlast : ((p.along displays moves).filterMap Display.ambient).getLast? with
      | none =>
        rw [hlast] at heq
        exact .inr (.inr (.inr ⟨List.getLast?_eq_none_iff.mp hlast, heq, .inl hnone⟩))
      | some n =>
        left
        obtain ⟨_, _, hambient⟩ := List.mem_filterMap.mp (List.mem_of_getLast? hlast)
        obtain ⟨cue, hcue⟩ := Option.isSome_iff_exists.mp (Display.ambient_eq_some hambient).2
        rw [hlast, Option.bind_some, hcue] at heq
        rw [Option.bind_some, hcue]
        exact heq
    · exact .inr (.inl hforgotten)
    · exact .inr (.inr (.inl hborrowed))

/-- A play goes on over what is left of the history of a new one, which has started its ambience and then moved. -/
theorem resumes (h : GoesOn p.startAmbience.play moves bound q) (haudio : p.script.hasAudio = true)
    (hstarted : p.ambienceStarted = false) (hnothing : p.history.blocks = [])
    (hp : p.history.Consistent p.script.graph) (hkeeps : p.history.bound = p.script.bound.toNat)
    (hroom : 1 ≤ p.script.bound) (hbound : 1 ≤ bound)
    (hmoves : ∀ operation ∈ moves, operation.isMove = true) :
    q.openingAmbience = (p.along ambiences (.startAmbience :: moves)).getLast? ∨
      Forgotten (p.startAmbience.play.along displays moves) q.history.blocks ∨
      Borrowed p.script.graph (latest bound (p.startAmbience.play.staying [] moves)) ∨
      (p.startAmbience.play.along displays moves).filterMap Display.ambient = [] ∧
        p.along ambiences (.startAmbience :: moves) = [] ∧ q.openingAmbience = p.script.graph.initialAmbience ∧
        (p.node?.bind Node.ambience).isSome = true ∧
        (p.startAmbience.play.along displays moves ≠ [] ∨
          (p.startAmbience.play.run moves).history.current = none) := by
  obtain ⟨hscript, hhistory, hopening⟩ := startAmbience_same (p := p)
  have hlast := getLast?_ambiences haudio hstarted hmoves
  have hresumed := h.openingAmbience (by rw [hhistory, hnothing]) (by rwa [hhistory, hscript])
    (by rw [hhistory, hscript, hkeeps]) (by rwa [hscript]) hbound hmoves
  rw [hopening, hscript, ← hlast] at hresumed
  rcases hresumed with hsame | hforgotten | hborrowed | ⟨hnone, hinitial, hmoved⟩
  · exact .inl hsame
  · exact .inr (.inl hforgotten)
  · exact .inr (.inr (.inl hborrowed))
  · rw [hnone, openingAmbience_of_nil hnothing] at hlast
    by_cases hown : (p.node?.bind Node.ambience).isSome = true
    · rw [if_pos hown] at hlast
      exact .inr (.inr (.inr ⟨hnone, List.getLast?_eq_none_iff.mp hlast, hinitial, hown, hmoved⟩))
    · rw [if_neg hown] at hlast
      exact .inl (hinitial.trans hlast.symm)

end GoesOn

/-- A new play with a player for sounds starts its ambience, then makes any moves, and its snapshot is restored into
a play over the same graph that has a player too. Then one ambience at most is asked for: that of the latest block
with an ambience, or else the initial one. It is the ambience that the first play has asked for last, and none if
that has asked for none, but for three cases: the last ambience that was displayed is no longer in the history, one of
the displays that are still in it is a reaction under the id of a node with an ambience, or none has been displayed and
the first play has asked for nothing, waiting for the entry to bring its own. -/
theorem restore_resumes_ambience {script : Script} {world : World} {p q : Play} {moves : List Operation}
    (hmake : make script world none = .ok p) (haudio : script.hasAudio = true)
    (hmoves : ∀ operation ∈ moves, operation.isMove = true) (hgraph : q.script.graph = script.graph)
    (hplayer : q.script.hasAudio = true) (hbound : 1 ≤ q.script.bound) :
    let operations := .startAmbience :: moves
    let displayed := p.along displays operations
    let kept := latest q.script.bound.toNat (p.staying [] operations)
    let turn := q.restore (.object (p.run operations).history.snapshot)
    turn.fault = none ∧ kept.map Display.blockId = turn.play.history.blocks.map Block.id ∧ ∃ resumed : Option Cue,
      turn.events.filter Event.isCue = (resumed.map .ambience).toList ∧
      (turn.play.history.blocks ≠ [] → resumed = script.latestAmbience turn.play.history.blocks) ∧
      (resumed = (p.along ambiences operations).getLast? ∨
        Forgotten displayed turn.play.history.blocks ∨
        Borrowed script.graph kept ∨
        displayed.filterMap Display.ambient = [] ∧ p.along ambiences operations = [] ∧
          resumed = script.graph.initialAmbience ∧ (p.node?.bind Node.ambience).isSome = true ∧
          (displayed ≠ [] ∨ (p.run operations).history.current = none)) := by
  intro operations displayed kept turn
  obtain ⟨hroom, hp⟩ := fresh?_eq_some (make_eq_ok hmake).2
  have hscript : p.script = script := by rw [hp]
  have hnothing : p.history.blocks = [] := by rw [hp]
  have hstarted : p.ambienceStarted = false := by rw [hp]
  have hkeeps : p.history.bound = p.script.bound.toNat := by rw [hp]
  have hconsistent : p.history.Consistent p.script.graph := by
    rw [hscript]
    exact (make_consistent (fun _ h => absurd h.symm (Option.some_ne_none _)) hmake).2
  subst hscript
  obtain ⟨hstartScript, hstartHistory, _⟩ := startAmbience_same (p := p)
  -- The second play goes on over what is left of the history.
  have hread := History.ofSnapshot_snapshot_latest q.script.graph hbound (p.run operations).history
  generalize hhistory : ({ current := _, blocks := _, waiting := _, bound := _ } : History) = history at hread
  obtain ⟨hfault, _, hplay⟩ := restore_of_ok hread
  have hblocks : turn.play.history.blocks = history.blocks := congrArg (fun p : Play => p.history.blocks) hplay
  have hgoesOn : GoesOn p.startAmbience.play moves q.script.bound.toNat { q with history } := by
    subst hhistory
    exact ⟨by rw [hstartScript, hgraph], rfl, rfl⟩
  have hkept : kept = latest q.script.bound.toNat (p.startAmbience.play.staying [] moves) := by
    have hnone : latest p.history.bound (p.unanswered [] .startAmbience ++ p.displays .startAmbience) = [] :=
      List.drop_nil
    exact congrArg (fun first => latest _ (p.startAmbience.play.staying first moves)) hnone
  have hids := (hgoesOn.stands (by rw [hstartHistory, hnothing]) (by rwa [hstartHistory, hstartScript]) hmoves).ids
  have hspace : 1 ≤ q.script.bound.toNat := by omega
  have hresumed := hgoesOn.resumes haudio hstarted hnothing hconsistent hkeeps hroom hspace hmoves
  rw [← hkept] at hids hresumed
  refine ⟨hfault, hblocks ▸ hids, ({ q with history } : Play).openingAmbience, restore_sounds hplayer hread, ?_,
    hblocks ▸ hresumed⟩
  intro hne
  rw [hblocks] at hne ⊢
  rw [openingAmbience_of_ne_nil hne, Script.latestAmbience, hgraph]
  rfl

/-- A new play of a graph in which it rains at first. -/
def rainPlay (nodes : List Node) (bound : Nat := 10) : Play :=
  let graph : Graph := { nodes, initialAmbience := some ⟨"rain", .one⟩ }
  { script := { graph, bound }
    history := ⟨graph.entry, [], false, bound⟩
    world := { items := { kind := .items }, notes := { kind := .notes } } }

/-- A street, a shop that hums, and its counter. -/
def shopNodes : List Node :=
  [{ id := some "street", kind := .singleParagraph, next := some "shop" },
   { id := some "shop", kind := .singleParagraph, ambience := some ⟨"hum", .one⟩, next := some "counter" },
   { id := some "counter", kind := .singleParagraph, next := some "back" },
   { id := some "back", kind := .singleParagraph }]

/-- At the counter the shop still hums. -/
theorem rainPlay_resumes_hum :
    let p := rainPlay shopNodes
    let operations : List Operation := [.startAmbience, .begin, .advance, .advance]
    let turn := p.restore (.object (p.run operations).history.snapshot)
    make p.script p.world none = .ok p ∧ turn.events.filter Event.isCue = [.ambience ⟨"hum", .one⟩] ∧
      (p.along ambiences operations).getLast? = some ⟨"hum", .one⟩ := by
  intro p operations turn
  have hmake : make p.script p.world none = .ok p := rfl
  have hmoves : ∀ operation ∈ ([.begin, .advance, .advance] : List Operation), operation.isMove = true := by
    simp [Operation.isMove]
  obtain ⟨_, _, resumed, hevents, hlatest, _⟩ :=
    restore_resumes_ambience (q := p) hmake rfl hmoves rfl rfl (by decide)
  refine ⟨hmake, ?_, by decide +kernel⟩
  have hhum : p.script.latestAmbience turn.play.history.blocks = some ⟨"hum", .one⟩ := by decide +kernel
  rw [hevents, hlatest (by decide +kernel), hhum]
  rfl

/-- Someone knocks while drums are heard, and is answered. Somewhere else there is an attic that creaks, and the
answer is followed by a line with its id. -/
def knockNodes (attic : Option String) : List Node :=
  [{ id := some "knock", kind := .dialogueChoice, ambience := if attic.isNone then some ⟨"drums", .one⟩ else none,
     choices := [{ text := "Open", next := some "guest", reactions := [{ id := attic, kind := .singleParagraph }] }] },
   { id := some "guest", kind := .singleParagraph },
   { id := some "attic", kind := .singleParagraph, ambience := some ⟨"creak", .one⟩ }]

/-- A night with crickets, which is only shown to those who stay up, and the morning after it. -/
def nightNodes : List Node :=
  [{ id := some "night", kind := .singleParagraph, conditions := [("awake", .bool true)],
     ambience := some ⟨"crickets", .one⟩, next := some "morning" },
   { id := some "morning", kind := .singleParagraph, next := some "noon" },
   { id := some "noon", kind := .singleParagraph }]

/-- What is resumed need not be what was asked for last. With room for one block only, the shop is forgotten at the
counter, and the drums are forgotten with the answered prompt; the creaking of the attic is borrowed by a reaction; and
the rain starts in the morning although it has never been asked for. -/
theorem rainPlay_resumes_other :
    let stories : List (Play × List Operation) :=
      [(rainPlay shopNodes 1, [.begin, .advance, .advance]),
       (rainPlay (knockNodes none), [.begin, .chooseIndex 0]),
       (rainPlay (knockNodes (some "attic")), [.begin, .chooseIndex 0]),
       (rainPlay nightNodes, [.begin])]
    (∀ story ∈ stories, make story.1.script story.1.world none = .ok story.1 ∧
      ∀ operation ∈ story.2, operation.isMove = true) ∧
    (stories.map fun story => ((story.1.along ambiences (.startAmbience :: story.2)).map Cue.id,
      (story.1.restore (.object (story.1.run (.startAmbience :: story.2)).history.snapshot)).events.filterMap
        (Option.map Cue.id ∘ Event.ambience?))) =
      [(["rain", "hum"], ["rain"]), (["drums"], ["rain"]), (["rain"], ["creak"]), ([], ["rain"])] := by
  refine ⟨?_, by decide +kernel⟩
  simp only [List.forall_mem_cons, List.not_mem_nil, false_implies, implies_true, and_true]
  refine ⟨⟨rfl, rfl, rfl, rfl⟩, ⟨rfl, rfl, rfl⟩, ⟨rfl, rfl, rfl⟩, rfl, rfl⟩

end Play
end BranchingStory
