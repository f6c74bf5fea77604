import BranchingStory.Play.Snapshot
import BranchingStory.Play.World

/-!
# Saves

A save is a document that holds the snapshot of the story together with the flags, the held items and
the unlocked notes. Reading a save checks all of it before anything changes.
-/

namespace BranchingStory

def saveVersion : Int := 1

structure SaveData where
  story : Option (Assoc Json) := none
  items : List String := []
  notes : List String := []
  flags : FlagValues := []
  timestamp : Option String := none

inductive SaveFault where
  | notObject
  | version (found : Json)
  | story
  | idsNotList (member : String)
  | idNotString (member : String)
  | flagsNotObject
  | flag (id : String)
  | noStory

def SaveFault.message : SaveFault → String
  | notObject => "Save data must be a JSON object."
  | version found => "Unsupported save version: " ++ found.shown ++ "."
  | story => "story must be an object or null."
  | idsNotList member => member ++ " must be a list."
  | idNotString member => member ++ " entries must be strings."
  | flagsNotObject => "flags must be an object."
  | flag id => "flags." ++ id ++ " must be a boolean, string or number."
  | noStory => "Save has no story progress."

/-- The document of a save made at the given time. -/
def World.save (w : World) (timestamp : String) (story : Option (Assoc Json)) : Assoc Json :=
  [("version", .int saveVersion), ("timestamp", .string timestamp),
   ("story", story.elim .null .object), ("inventoryIds", .strings w.items.ids),
   ("noteIds", .strings w.notes.ids), ("flags", .object w.flags)]

namespace SaveData

/-- The version may be written as a whole number or as a double. -/
def isSupported : Json → Bool
  | .number n => n.equals (.int saveVersion)
  | _ => false

def storyOf : Json → Except SaveFault (Option (Assoc Json))
  | .null => .ok none
  | .object members => .ok (some members)
  | _ => .error .story

def idsOf (member : String) : Json → Except SaveFault (List String)
  | .null => .ok []
  | .array items =>
    match Reading.allStrings? items with
    | some ids => .ok ids
    | none => .error (.idNotString member)
  | _ => .error (.idsNotList member)

def flagMembers : List (String × Json) → Except SaveFault FlagValues
  | [] => .ok []
  | (id, value) :: rest =>
    match FlagValue.ofJson? value with
    | some v => do return (id, v) :: (← flagMembers rest)
    | none => .error (.flag id)

def flagsOf : Json → Except SaveFault FlagValues
  | .null => .ok []
  | .object members => flagMembers members
  | _ => .error .flagsNotObject

def timestampOf : Json → Option String
  | .string s => some s
  | _ => none

def read : Json → Except SaveFault SaveData
  | .object members =>
    let version := Reading.field members "version"
    if isSupported version then do
      let story ← storyOf (Reading.field members "story")
      let items ← idsOf "inventoryIds" (Reading.field members "inventoryIds")
      let notes ← idsOf "noteIds" (Reading.field members "noteIds")
      let flags ← flagsOf (Reading.field members "flags")
      return { story, items, notes, flags, timestamp := timestampOf (Reading.field members "timestamp") }
    else .error (.version version)
  | _ => .error .notObject

end SaveData

/-- Take over flags, items and notes from a save. -/
def World.load (w : World) (data : SaveData) : Told World := do
  let items ← w.items.restore data.items
  let notes ← w.notes.restore data.notes
  Told.tell (.saveApplied data.timestamp)
  return { w with flags := .ofValues data.flags, items, notes }

end BranchingStory
