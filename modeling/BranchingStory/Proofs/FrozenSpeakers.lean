import BranchingStory.Proofs.Effects
import Mathlib.Logic.Function.Basic

/-!
# Frozen speakers

Whom a character's line shows as speaking is settled once, at the end of the call that puts it on display. From
then on nothing changes it: neither flags, nor what is displayed later, nor that the line is saved in a snapshot
and loaded elsewhere, over another cast and other flags. To say this of a line while it lasts, every block of a
history is followed from the call that displayed it, together with the identity that was settled then.
-/

namespace BranchingStory

namespace Play

variable (p : Play)

/-- Whom a block shows as speaking if it is settled now. Only a character's line shows anybody. -/
def speakerNow (b : Block) : Option Identity :=
  if b.kind = .characterDialogue then (SpeakerRef.resolve b.speaker p.script.cast p.world.flags.isSet).value
  else none

variable {p}

theorem blockIn_frozen (world : World) (n : Node) : (p.blockIn world n).frozen =
    if n.kind = .characterDialogue then (SpeakerRef.resolve n.speaker p.script.cast world.flags.isSet).value
    else none := by
  unfold blockIn freeze
  split <;> rfl

theorem frozen_of_mem_shown {operation : Operation} {b : Block} (hb : b ∈ (p.perform operation).shown) :
    b.frozen = (p.perform operation).play.speakerNow b := by
  have hshows : (p.perform operation).shown = _ := shows_eq_map operation
  rw [hshows] at hb
  obtain ⟨display, _, rfl⟩ := List.mem_map.mp hb
  obtain ⟨frozen, hblock⟩ := p.blockIn_eq_ofNode (p.perform operation).play.world display.shownNode
  rw [blockIn_frozen, speakerNow, perform_script, hblock]
  rfl

theorem identityOf_of_frozen {b : Block} {identity : Identity} (h : b.frozen = some identity) :
    (p.identityOf b).value = some identity := by
  rw [identityOf, Block.identity, h]
  rfl

/-- Reading a snapshot is taken to the end or refused. Taken to the end, it leaves the blocks that were read; refused,
it leaves the play as it was. -/
theorem restore_cases (p : Play) (snapshot : Json) :
    ((p.restore snapshot).fault = none ∧ ∃ history ambienceStarted,
      (History.ofSnapshot p.script.graph p.script.bound snapshot).result = .ok history ∧
      (p.restore snapshot).play = { p with history, begun := true, ambienceStarted }) ∨
    (p.restore snapshot).fault ≠ none ∧ (p.restore snapshot).play = p := by
  cases hread : (History.ofSnapshot p.script.graph p.script.bound snapshot).result with
  | ok history =>
    obtain ⟨hfault, ambienceStarted, hplay⟩ := restore_of_ok hread
    exact .inl ⟨hfault, history, ambienceStarted, rfl, hplay⟩
  | error fault =>
    obtain ⟨hplay, hfault⟩ := restore_of_error hread
    exact .inr ⟨by simp [hfault], hplay⟩

end Play

theorem latest_suffix_latest_append {α : Type} (bound : Nat) (old new : List α) :
    latest bound new <:+ latest bound (old ++ new) := by
  refine List.suffix_of_suffix_length_le ((List.drop_suffix _ _).trans (List.suffix_append old new))
    (List.drop_suffix _ _) ?_
  simp only [latest, List.length_drop, List.length_append]
  omega

/-! ## Blocks that are followed -/

/-- A block of a history, and whom it was settled to show as speaking when the block was displayed. A block that
was read from a document that nobody has followed has nothing settled. -/
structure Sighting where
  block : Block
  settled : Option Identity := none

def Sighting.reread (s : Sighting) : Sighting := { s with block := s.block.normal }

/-- A play together with the blocks of its history, each followed from its display on. -/
structure Watched where
  play : Play
  sightings : List Sighting

/-- A snapshot together with the blocks in it. -/
structure Saved where
  snapshot : Assoc Json
  sightings : List Sighting

namespace Watched

variable (w : Watched)

def ofPlay (p : Play) : Watched := ⟨p, p.history.blocks.map ({ block := · })⟩

/-- The blocks that stay when an operation adds others: all but the answered prompt. -/
def cleared (operation : Operation) : List Sighting :=
  match (w.play.taken operation).bind fun _ => w.play.node?.bind fun prompt => nonEmpty? prompt.id with
  | none => w.sightings
  | some id => w.sightings.eraseP fun s => s.block.id == some id

/-- The blocks that an operation displays. Whom they show is settled as things are at its end. -/
def displayed (operation : Operation) : List Sighting :=
  let turn := w.play.perform operation
  turn.shown.map fun b => ⟨b, turn.play.speakerNow b⟩

def extend (operation : Operation) : Watched :=
  { play := (w.play.perform operation).play
    sightings :=
      if (w.displayed operation).isEmpty then w.sightings
      else latest w.play.history.bound (w.cleared operation ++ w.displayed operation) }

/-- An operation that puts another history in place of the one that was followed, unless it is refused. -/
def replace (operation : Operation) : Watched :=
  let turn := w.play.perform operation
  if turn.fault.isNone then ofPlay turn.play else w

def perform : Operation → Watched
  | .reset => w.replace .reset
  | .restore snapshot => w.replace (.restore snapshot)
  | operation => w.extend operation

def save : Saved := ⟨w.play.history.snapshot, latest w.play.history.bound w.sightings⟩

/-- To go on from a save, still following what is in it. -/
def load (saved : Saved) : Watched :=
  let turn := w.play.restore (.object saved.snapshot)
  if turn.fault.isNone then
    ⟨turn.play, latest turn.play.history.bound (saved.sightings.map Sighting.reread)⟩
  else w

/-- What holds of a followed play at all times: the followed blocks are those of the history, and whom one of them
was settled to show is frozen in it. -/
structure Faithful (w : Watched) : Prop where
  blocks : w.sightings.map Sighting.block = w.play.history.blocks
  frozen : ∀ s ∈ w.sightings, ∀ identity, s.settled = some identity → s.block.frozen = some identity

variable {w}

theorem perform_play (operation : Operation) : (w.perform operation).play = (w.play.perform operation).play := by
  have hreplace : ((w.play.perform operation).fault ≠ none → (w.play.perform operation).play = w.play) →
      (w.replace operation).play = (w.play.perform operation).play := by
    intro hrefused
    unfold replace
    dsimp only
    split
    · rfl
    · rename_i hfault
      exact (hrefused (by simpa using hfault)).symm
  cases operation with
  | reset =>
    refine hreplace fun hfault => ?_
    rw [Play.perform, Play.reset] at hfault ⊢
    split at hfault
    · rfl
    · exact absurd rfl hfault
  | restore snapshot =>
    refine hreplace fun hfault => ?_
    rcases w.play.restore_cases snapshot with ⟨hnone, _⟩ | ⟨_, hplay⟩
    · exact absurd hnone hfault
    · exact hplay
  | _ => rfl

theorem load_play (saved : Saved) :
    (w.load saved).play = (w.play.restore (.object saved.snapshot)).play := by
  unfold load
  dsimp only
  split
  · rfl
  · rename_i hfault
    rcases w.play.restore_cases (.object saved.snapshot) with ⟨hnone, _⟩ | ⟨_, hplay⟩
    · exact absurd (Option.isNone_iff_eq_none.mpr hnone) hfault
    · exact hplay.symm

theorem ofPlay_faithful (p : Play) : (ofPlay p).Faithful := by
  refine ⟨?_, ?_⟩
  · rw [ofPlay, List.map_map]
    exact List.map_id _
  · intro s hs identity hsettled
    obtain ⟨b, _, rfl⟩ := List.mem_map.mp hs
    cases hsettled

theorem replace_faithful (hw : w.Faithful) (operation : Operation) : (w.replace operation).Faithful := by
  unfold replace
  dsimp only
  split
  · exact ofPlay_faithful _
  · exact hw

theorem mem_of_mem_cleared {operation : Operation} {s : Sighting} (hs : s ∈ w.cleared operation) :
    s ∈ w.sightings := by
  unfold cleared at hs
  split at hs
  · exact hs
  · exact List.mem_of_mem_eraseP hs

theorem cleared_map_block (hw : w.Faithful) (operation : Operation) :
    (w.cleared operation).map Sighting.block = (w.play.cleared operation).blocks := by
  unfold cleared Play.cleared Play.answered
  cases htaken : w.play.taken operation with
  | none => exact hw.blocks
  | some choice =>
    cases hprompt : w.play.node? with
    | none => exact hw.blocks
    | some prompt =>
      cases hid : nonEmpty? prompt.id with
      | none => simp [hid, History.removeFirst, hw.blocks]
      | some id => simp [hid, History.removeFirst, ← hw.blocks, List.eraseP_map, Function.comp_def]

/-- What is displayed is followed with the identity that is frozen in it, and nothing that was followed changes. -/
theorem extend_faithful (hw : w.Faithful) {operation : Operation} (hreset : operation ≠ .reset)
    (hrestore : ∀ snapshot, operation ≠ .restore snapshot) : (w.extend operation).Faithful := by
  have hturn := Play.perform_blocks (p := w.play) hreset hrestore
  unfold extend
  rcases hturn with ⟨hnone, hsame⟩ | ⟨hshown, hblocks⟩
  · rw [if_pos (by simp [displayed, hnone])]
    exact ⟨hw.blocks.trans hsame.symm, hw.frozen⟩
  · rw [if_neg (by simpa [displayed] using hshown)]
    refine ⟨?_, ?_⟩
    · rw [hblocks, ← cleared_map_block hw operation, ← latest_map, List.map_append, displayed,
        List.map_map]
      congr 2
      exact List.map_id _
    · intro s hs identity hsettled
      rcases List.mem_append.mp (mem_of_mem_latest hs) with hold | hnew
      · exact hw.frozen s (mem_of_mem_cleared hold) identity hsettled
      · obtain ⟨b, hb, rfl⟩ := List.mem_map.mp hnew
        rw [Play.frozen_of_mem_shown hb]
        exact hsettled

theorem perform_faithful (hw : w.Faithful) (operation : Operation) : (w.perform operation).Faithful := by
  cases operation with
  | reset => exact replace_faithful hw .reset
  | restore snapshot => exact replace_faithful hw (.restore snapshot)
  | _ => exact extend_faithful hw (fun h => nomatch h) (fun _ h => nomatch h)

theorem displayed_suffix_perform (operation : Operation) :
    latest w.play.history.bound (w.displayed operation) <:+ (w.perform operation).sightings := by
  have hnone : ∀ kept : List Sighting, w.displayed operation = [] →
      latest w.play.history.bound (w.displayed operation) <:+ kept := by
    intro kept h
    rw [h, latest_eq_self (Nat.zero_le _)]
    exact List.nil_suffix
  have hextend : latest w.play.history.bound (w.displayed operation) <:+ (w.extend operation).sightings := by
    unfold extend
    dsimp only
    split
    · rename_i hempty
      exact hnone _ (List.isEmpty_iff.mp hempty)
    · exact latest_suffix_latest_append _ _ _
  cases operation with
  | reset => exact hnone _ (List.map_eq_nil_iff.mpr (Play.perform_shown .reset))
  | restore snapshot => exact hnone _ (List.map_eq_nil_iff.mpr (Play.perform_shown (.restore snapshot)))
  | _ => exact hextend

end Watched

/-- What holds of a save: its snapshot is that of a history, the blocks in it are followed, and whom one of them
was settled to show is frozen in it. -/
structure Saved.Faithful (saved : Saved) : Prop where
  blocks : ∃ h : History, saved.snapshot = h.snapshot ∧
    saved.sightings.map Sighting.block = latest h.bound h.blocks
  frozen : ∀ s ∈ saved.sightings, ∀ identity, s.settled = some identity → s.block.frozen = some identity

namespace Watched

variable {w : Watched}

theorem save_faithful (hw : w.Faithful) : w.save.Faithful := by
  refine ⟨⟨w.play.history, rfl, ?_⟩, ?_⟩
  · rw [save, ← latest_map, hw.blocks]
  · intro s hs identity hsettled
    exact hw.frozen s (mem_of_mem_latest hs) identity hsettled

/-- Reading a block back changes nothing of what is frozen in it. -/
theorem load_faithful (hw : w.Faithful) {saved : Saved} (hsaved : saved.Faithful) : (w.load saved).Faithful := by
  obtain ⟨h, hsnapshot, hblocks⟩ := hsaved.blocks
  unfold load
  dsimp only
  rcases w.play.restore_cases (.object saved.snapshot) with ⟨hnone, history, _, hread, hplay⟩ | ⟨hfault, _⟩
  · rw [if_pos (Option.isNone_iff_eq_none.mpr hnone), hplay]
    obtain ⟨_, _, hmake⟩ := History.exists_of_ofSnapshot_eq_ok hread
    obtain ⟨hbound, _⟩ := History.make?_eq_some.mp hmake
    rw [hsnapshot, History.ofSnapshot_snapshot_latest _ hbound h] at hread
    obtain rfl := Except.ok.inj hread
    refine ⟨?_, ?_⟩
    · have hreread : Sighting.block ∘ Sighting.reread = Block.normal ∘ Sighting.block := rfl
      rw [← latest_map, List.map_map, hreread, ← List.map_map, hblocks, latest_map]
    · intro s hs identity hsettled
      obtain ⟨written, hwritten, rfl⟩ := List.mem_map.mp (mem_of_mem_latest hs)
      exact hsaved.frozen written hwritten identity hsettled
  · rw [if_neg (by simpa using hfault)]
    exact hw

end Watched

/-! ## Several plays -/

/-- Plays that are followed side by side, each with a script and a world of its own, and the saves they share. -/
structure Stage (ι : Type) where
  watched : ι → Watched
  saves : List Saved := []

/-- What may happen next: something is done with one of the plays, one of them is saved, or one of them goes on
from a save that any of them has made. -/
inductive StageStep (ι : Type) where
  | perform (play : ι) (operation : Operation)
  | save (play : ι)
  | load (play : ι) (slot : Nat)

namespace Stage

variable {ι : Type} [DecidableEq ι]

def ofPlays (plays : ι → Play) : Stage ι := { watched := fun i => .ofPlay (plays i) }

def step (stage : Stage ι) : StageStep ι → Stage ι
  | .perform i operation =>
    { stage with watched := Function.update stage.watched i ((stage.watched i).perform operation) }
  | .save i => { stage with saves := stage.saves ++ [(stage.watched i).save] }
  | .load i slot =>
    match stage.saves[slot]? with
    | none => stage
    | some saved => { stage with watched := Function.update stage.watched i ((stage.watched i).load saved) }

def run (stage : Stage ι) (steps : List (StageStep ι)) : Stage ι := steps.foldl step stage

structure Faithful (stage : Stage ι) : Prop where
  watched : ∀ i, (stage.watched i).Faithful
  saves : ∀ saved ∈ stage.saves, saved.Faithful

theorem update_faithful {stage : Stage ι} (hstage : stage.Faithful) {i : ι} {w : Watched} (hw : w.Faithful) :
    Faithful { stage with watched := Function.update stage.watched i w } := by
  refine ⟨fun j => ?_, hstage.saves⟩
  show (Function.update stage.watched i w j).Faithful
  by_cases hj : j = i
  · subst hj
    rw [Function.update_self]
    exact hw
  · rw [Function.update_of_ne hj]
    exact hstage.watched j

theorem step_faithful {stage : Stage ι} (hstage : stage.Faithful) (next : StageStep ι) :
    (stage.step next).Faithful := by
  cases next with
  | perform i operation =>
    exact update_faithful hstage (Watched.perform_faithful (hstage.watched i) operation)
  | save i =>
    refine ⟨hstage.watched, fun saved hsaved => ?_⟩
    rcases List.mem_append.mp hsaved with hold | hnew
    · exact hstage.saves saved hold
    · rw [List.mem_singleton.mp hnew]
      exact Watched.save_faithful (hstage.watched i)
  | load i slot =>
    rw [step]
    split
    · exact hstage
    · rename_i saved hslot
      have hsaved := hstage.saves saved (List.mem_of_getElem? hslot)
      exact update_faithful hstage (Watched.load_faithful (hstage.watched i) hsaved)

theorem run_faithful {stage : Stage ι} (hstage : stage.Faithful) (steps : List (StageStep ι)) :
    (stage.run steps).Faithful := by
  induction steps generalizing stage with
  | nil => exact hstage
  | cons next steps ih => exact ih (step_faithful hstage next)

/-- Whatever is done with any plays, in whatever order, and whichever of them goes on from the saves of which
other: a character's line shows, in the history of each play, whom its speaker stood for at the end of the call
that displayed it. -/
theorem run_settles_speakers (plays : ι → Play) (steps : List (StageStep ι)) (i : ι) :
    let w := ((ofPlays plays).run steps).watched i
    (∀ operation, (w.perform operation).play = (w.play.perform operation).play ∧
      latest w.play.history.bound (w.displayed operation) <:+ (w.perform operation).sightings ∧
      ∀ b ∈ (w.play.perform operation).shown, b.kind = .characterDialogue → ∀ ref, b.speaker = some ref →
        let after := (w.play.perform operation).play
        let identity := ref.identity after.script.cast after.world.flags.isSet
        after.speakerNow b = some identity ∧ (after.identityOf b).value = some identity) ∧
    (∀ saved, (w.load saved).play = (w.play.restore (.object saved.snapshot)).play) ∧
    w.sightings.map Sighting.block = w.play.history.blocks ∧
    ∀ s ∈ w.sightings, ∀ identity, s.settled = some identity → (w.play.identityOf s.block).value = some identity := by
  intro w
  have hopening : (ofPlays plays).Faithful :=
    ⟨fun j => Watched.ofPlay_faithful (plays j), fun _ hsaved => absurd hsaved List.not_mem_nil⟩
  have hw : w.Faithful := (run_faithful hopening steps).watched i
  refine ⟨fun operation => ⟨Watched.perform_play operation, Watched.displayed_suffix_perform operation, ?_⟩,
    Watched.load_play, hw.blocks, ?_⟩
  · intro b hb hkind ref href after identity
    have hsettled : after.speakerNow b = some identity := by
      rw [Play.speakerNow, if_pos hkind, href]
      rfl
    exact ⟨hsettled, Play.identityOf_of_frozen ((Play.frozen_of_mem_shown hb).trans hsettled)⟩
  · intro s hs identity hsettled
    exact Play.identityOf_of_frozen (hw.frozen s hs identity hsettled)

/-- A call from somebody who is named only later and has a word for whoever answers, told with the given cast. -/
def callPlay (cast : Cast) : Play :=
  { script :=
      { graph :=
          { nodes :=
              [{ id := some "call", kind := .characterDialogue, speaker := some (.named "caller"), next := some "ask" },
               { id := some "ask", kind := .dialogueChoice, next := some "end",
                 choices :=
                   [{ text := "Answer"
                      reactions := [{ kind := .characterDialogue, speaker := some (.named "caller") }] }] },
               { id := some "end", kind := .singleParagraph }] }
        cast }
    history := ⟨some "call", [], false, 10⟩
    world := { items := { kind := .items }, notes := { kind := .notes } } }

/-- A cast in which the caller is a voice, and has a name once it is known. -/
def callCast : Cast :=
  [("caller",
    { id := "caller", states := [{ label := some "Voice" }, { label := some "Ada", condition := some "known" }] })]

/-- The call is answered, then the name gets known, and all that was said is loaded into a play that has nobody in its
cast. There it is still the voice who has called, and who has spoken again to the player who answered. -/
theorem callPlay_settles_speaker :
    let plays : Bool → Play := fun original => callPlay (if original then callCast else [])
    let known : Flags := .ofValues [("known", .bool true)]
    let steps : List (StageStep Bool) :=
      [.perform true .begin, .perform true .advance, .perform true (.chooseIndex 0), .perform true (.flags known),
       .save true, .load false 0]
    let w := ((ofPlays plays).run steps).watched false
    w.sightings.map Sighting.settled =
        [some ⟨some "caller", "Voice", ""⟩, some ⟨some "you", "You", ""⟩, some ⟨some "caller", "Voice", ""⟩, none] ∧
      (∀ s ∈ w.sightings, ∀ identity, s.settled = some identity →
        (w.play.identityOf s.block).value = some identity) ∧
      (SpeakerRef.named "caller").identity callCast known.isSet = ⟨some "caller", "Ada", ""⟩ ∧
      (SpeakerRef.named "caller").identity [] known.isSet = ⟨some "caller", "???", ""⟩ := by
  intro plays known steps w
  obtain ⟨_, _, _, hsettled⟩ := run_settles_speakers plays steps false
  exact ⟨by decide +kernel, hsettled, by decide +kernel, by decide +kernel⟩

end Stage
end BranchingStory
