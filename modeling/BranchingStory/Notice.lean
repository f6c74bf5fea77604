import BranchingStory.Json.Text
import BranchingStory.Story.Node

/-!
# Notices

What happens behind the scenes is told in notices: each has a cause, and from the cause follow how
important it is, which part of the program it concerns, and its wording.
-/

namespace BranchingStory

/-- How important a notice is. -/
inductive Level where
  | debug
  | info
  | warning
  | error
deriving DecidableEq

namespace Level

def name : Level → String
  | debug => "DEBUG"
  | info => "INFO"
  | warning => "WARNING"
  | error => "ERROR"

/-- The conventional number of a level; a larger one is more important. -/
def severity : Level → Nat
  | debug => 10
  | info => 20
  | warning => 30
  | error => 40

def reaches (level threshold : Level) : Bool := threshold.severity ≤ level.severity

end Level

inductive Notice where
  | conditionsNotObject (place : String)
  | conditionNotScalar (place flag : String)
  | unknownItem (id : String)
  | unknownNote (id : String)
  | unknownCharacter (id : String)
  | flagSet (id : String) (value : FlagValue)
  | loopStopped (node : Option String)
  | branchDangling (node : Option String) (target : String)
  | nextDangling (node : Option String) (target : String)
  | positionLost (id : String)
  | historyEntryDropped (entry : Json)
  | currentMissing (id : String)
  | rendered (id : Option String) (kind : NodeKind)
  | choiceDangling (text : String) (target : String)
  | chosen (text : String) (prompt next : Option String)
  | begun (entry : Option String)
  | reset (entry : Option String)
  | restored (position : Option String)
  | ended
  | saveApplied (timestamp : Option String)
  | saveUnchanged
  | saveWritten (path : String)
  | ambienceStarted (cue : Cue)
  | soundPlayed (cue : Cue)
  | noSave
  | saveFailed (reason : String)
  | loadFailed (reason : String)

namespace Notice

/-- How a message names an id that may be missing. -/
def idText : Option String → String
  | some id => id
  | none => "None"

def level : Notice → Level
  | conditionsNotObject .. | conditionNotScalar .. | unknownItem .. | unknownNote .. => .warning
  | branchDangling .. | nextDangling .. | positionLost .. | currentMissing .. => .warning
  | choiceDangling .. | noSave => .warning
  | unknownCharacter .. | flagSet .. | loopStopped .. | historyEntryDropped .. => .debug
  | rendered .. | chosen .. | saveUnchanged => .debug
  | begun .. | reset .. | restored .. | ended | saveApplied .. | saveWritten .. => .info
  | ambienceStarted .. | soundPlayed .. => .info
  | saveFailed .. | loadFailed .. => .error

def channel : Notice → String
  | conditionsNotObject .. | conditionNotScalar .. => "paperbacks.data.repositories.story_repo"
  | unknownItem .. => "paperbacks.domain.inventory"
  | unknownNote .. => "paperbacks.domain.notes"
  | unknownCharacter .. => "paperbacks.services.characters"
  | flagSet .. => "paperbacks.services.effects"
  | loopStopped .. | branchDangling .. | nextDangling .. => "paperbacks.services.traversal"
  | positionLost .. | historyEntryDropped .. => "paperbacks.services.snapshot_codec"
  | currentMissing .. | rendered .. | choiceDangling .. | chosen .. => "paperbacks.services.story_engine"
  | begun .. | reset .. | restored .. | ended => "paperbacks.services.story_engine"
  | saveApplied .. => "paperbacks.services.save_service"
  | saveUnchanged | saveWritten .. => "paperbacks.presentation.cli.save_slots"
  | ambienceStarted .. | soundPlayed .. | noSave => "paperbacks.presentation.cli.app"
  | saveFailed .. | loadFailed .. => "paperbacks.presentation.cli.app"

private def volumeText (cue : Cue) : String := cue.volume.fixed Json.shownNames 2

def message : Notice → String
  | conditionsNotObject place => place ++ " is not a mapping; treating node as unconditional."
  | conditionNotScalar place flag => place ++ "." ++ flag ++ " has a non-scalar value; ignoring it."
  | unknownItem id => "Ignoring unknown inventory item '" ++ id ++ "'."
  | unknownNote id => "Ignoring unknown note '" ++ id ++ "'."
  | unknownCharacter id => "Character '" ++ id ++ "' is not in the characters table."
  | flagSet id value => "Setting flag " ++ id ++ "=" ++ value.toJson.shown
  | loopStopped node => "Loop guard stopped resolution at '" ++ idText node ++ "'."
  | branchDangling node target =>
    "Branch on '" ++ idText node ++ "' points at missing node '" ++ target ++ "'."
  | nextDangling node target =>
    "Node '" ++ idText node ++ "' points at missing node '" ++ target ++ "'."
  | positionLost id => "Snapshot position '" ++ id ++ "' is no longer in the story."
  | historyEntryDropped entry => "Dropping legacy history entry " ++ entry.shown ++ "."
  | currentMissing id => "Current node '" ++ id ++ "' is missing; ending story."
  | rendered id kind => "Rendered node '" ++ idText id ++ "' (" ++ kind.name ++ ")."
  | choiceDangling text target =>
    "Choice '" ++ text ++ "' leads to missing node '" ++ target ++ "'."
  | chosen text prompt next =>
    "Chose '" ++ text ++ "' at '" ++ idText prompt ++ "' -> " ++ idText next ++ "."
  | begun entry => "Story begun at '" ++ idText entry ++ "'."
  | reset entry => "Story reset to '" ++ idText entry ++ "'."
  | restored position => "Restored story at '" ++ idText position ++ "'."
  | ended => "Story ended."
  | saveApplied timestamp =>
    "Applied save from " ++ (nonEmpty? timestamp).getD "an unknown time" ++ "."
  | saveUnchanged => "Quick save unchanged; skipping write."
  | saveWritten path => "Quick save written to " ++ path ++ "."
  | ambienceStarted cue => "Ambience -> " ++ cue.id ++ " (volume " ++ volumeText cue ++ ")"
  | soundPlayed cue => "SFX -> " ++ cue.id ++ " (volume " ++ volumeText cue ++ ")"
  | noSave => "No save data found."
  | saveFailed reason => "Save failed: " ++ reason
  | loadFailed reason => "Load failed: " ++ reason

def line (n : Notice) : String := n.level.name ++ " " ++ n.channel ++ ": " ++ n.message

end Notice

end BranchingStory
