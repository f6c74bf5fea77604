import BranchingStory.Console.Slot
import BranchingStory.Library.Repository
import BranchingStory.Play.Engine
import BranchingStory.Text.Charset

/-!
# Sessions

A session is one play-through: the play, and what the player starts out with. It is built from the
authored documents, starts over, and is saved to and loaded from a slot. A load that fails leaves the
session as it was.
-/

namespace BranchingStory

structure Session where
  play : Play
  startingItems : List String := []
  startingNotes : List String := []

/-- Why the program cannot start, or has to stop while it runs. -/
inductive SessionFault where
  | place (fault : PlaceFault)
  | library (fault : LibraryFault)
  | disk (fault : DiskFault)
  | play (fault : PlayFault)
  | numeral (fault : Numeral.Fault)
  | document (fault : DocumentFault)
  | screen (fault : Charset.Fault)
deriving DecidableEq

def SessionFault.message : SessionFault → String
  | place fault => fault.message
  | library fault => fault.message
  | disk fault => fault.message
  | play fault => fault.message
  | numeral fault => fault.message
  | document fault => fault.message
  | screen fault => fault.message

structure SessionTurn where
  session : Session
  events : List Event := []

/-- What loading a save leads to; a fault that is no fault of the save stops the program. -/
structure SessionLoad where
  session : Session
  events : List Event := []
  result : Except SessionFault Bool

namespace Session

/-! ## Building -/

/-- The ids of the definitions that a new player has. -/
def startingIds {α : Type} (has : α → Bool) (definitions : Assoc α) : List String :=
  (definitions.filter fun entry => has entry.2).map Prod.fst

/-- A session over the documents of a directory. They are loaded in a fixed order: flags, items, notes,
story, characters. -/
def build (directory : Path) (d : Disk) : Attempt SessionFault Session := do
  let flags ← (Source.flags.load directory d).mapError .library
  let items ← (Source.items.load directory d).mapError .library
  let notes ← (Source.notes.load directory d).mapError .library
  let world := World.make (.ofValues flags) items.keys (startingIds Item.acquired items)
    notes.keys (startingIds Note.unlocked notes)
  (⟨.ok (), world.notices⟩ : Attempt SessionFault Unit)
  let graph ← (Source.story.load directory d).mapError .library
  let cast ← (Source.characters.load directory d).mapError .library
  let play ← Attempt.ofExcept ((Play.make { graph, cast } world.value none).mapError .play)
  return { play, startingItems := world.value.items.ids, startingNotes := world.value.notes.ids }

variable (s : Session)

def startAmbience : SessionTurn :=
  let turn := s.play.startAmbience
  { session := { s with play := turn.play }, events := turn.events }

/-- Throw away all progress: the story starts over, with the flags, items and notes of a new player. -/
def newGame : SessionTurn :=
  let reset := s.play.reset
  let world := reset.play.world.resetFlags
  let items := world.items.restore s.startingItems
  let notes := world.notes.restore s.startingNotes
  let play := { reset.play with world := { world with items := items.value, notes := notes.value } }
  let started := play.startAmbience
  { session := { s with play := started.play }
    events := reset.events ++ noticeEvents (items.notices ++ notes.notices) ++ started.events }

/-! ## Saving and loading -/

def save (timestamp : String) : Assoc Json :=
  s.play.world.save timestamp (some s.play.history.snapshot)

/-- A load that is refused with a notice. -/
def refuseLoad (notice : Notice) : SessionLoad :=
  { session := s, events := [.notice notice], result := .ok false }

/-- Take over a save whose story has been restored: if that was accepted, then flags, items and notes. -/
def takeOver (data : SaveData) (turn : Turn) : SessionLoad :=
  match turn.fault with
  | some (.restore (.snapshot fault)) =>
    { session := { s with play := turn.play }
      events := turn.events ++ [.notice (.loadFailed fault.message)]
      result := .ok false }
  | some fault =>
    { session := { s with play := turn.play }, events := turn.events, result := .error (.play fault) }
  | none =>
    let world := turn.play.world.load data
    { session := { s with play := { turn.play with world := world.value } }
      events := turn.events ++ noticeEvents world.notices
      result := .ok true }

/-- Load the save of a document: first the story. -/
def loadBy (restore : Json → Turn) (document : Json) : SessionLoad :=
  match SaveData.read document with
  | .error fault => s.refuseLoad (.loadFailed fault.message)
  | .ok data =>
    match data.story with
    | none => s.refuseLoad (.loadFailed (SaveFault.message .noStory))
    | some story => s.takeOver data (restore (.object story))

/-- Load the save of a document, however deep its story nests. -/
def loadDocument (document : Json) : SessionLoad := s.loadBy s.play.restore document

/-- Load what a slot holds; an empty document is no save. A fault of the disk or of what was found is a
reason to refuse, and no other fault is. -/
def quickLoad (slot : Slot) (d : Disk) : SessionLoad :=
  match slot.read d with
  | .error fault =>
    if fault.kind.isSystem || fault.kind.isValue then s.refuseLoad (.loadFailed fault.message)
    else { session := s, result := .error (.document fault) }
  | .ok none | .ok (some .null) => s.refuseLoad .noSave
  | .ok (some document) => s.loadBy (s.play.restoreWithin d.room) document

end Session
end BranchingStory
