import BranchingStory.Story.Cast
import BranchingStory.Story.Reading

/-!
# Catalogues

The other authored documents: the cast, the default values of the flags, and the catalogues of items
and notes. Each reads into a map from ids to definitions in authored order.
-/

namespace BranchingStory

structure Item where
  id : String
  name : String
  description : String := ""
  acquired : Bool := false
deriving DecidableEq

structure Note where
  id : String
  title : String
  text : String := ""
  unlocked : Bool := false
deriving DecidableEq

open Reading

def readEntries {α : Type} (entry : String → Json → Reading α) :
    List (String × Json) → Reading (Assoc α)
  | [] => pure []
  | (key, value) :: rest => do
    let first ← entry key value
    return (key, first) :: (← readEntries entry rest)

namespace NameState

def read (place : String) (j : Json) : Reading NameState := do
  let members ← object place j
  let label ← optionalString (place ++ " label") (field members "label")
  let condition ← optionalString (place ++ " condition") (field members "condition")
  return { label, condition }

end NameState

namespace Character

def read (id : String) (j : Json) : Reading Character := do
  let place := "character '" ++ id ++ "'"
  let members ← object place j
  let name ← optionalString (place ++ " name") (field members "name")
  let portrait ← optionalString (place ++ " portrait") (field members "portrait")
  let states ← optionalList (place ++ " nameStates") NameState.read (field members "nameStates")
  return { id, name, portrait := portrait.getD "", states }

end Character

def Cast.read : Json → Reading Cast
  | .object members => readEntries Character.read members
  | _ => expected "characters" .object

/-- The default value of a flag; a flag without one starts out false. -/
def FlagValue.readDefault (id : String) (j : Json) : Reading FlagValue := do
  let place := "flag '" ++ id ++ "'"
  let members ← object place j
  match FlagValue.ofJson? ((Assoc.get? members "default").getD (.bool false)) with
  | some value => return value
  | none => expected (place ++ " default") .scalar

/-- The flags of a story with their default values. -/
def FlagValues.readDefaults : Json → Reading FlagValues
  | .object members => readEntries FlagValue.readDefault members
  | _ => expected "flags" .object

/-- Read the entries of a catalogue. Their ids are checked against the earlier ones, which `read`
holds, before anything else about them. -/
def readCatalogue {α : Type} (list sort : String) (entry : String → Assoc Json → Reading α)
    (read : Assoc α) (index : Nat) : List Json → Reading (Assoc α)
  | [] => pure read
  | item :: items => do
    let place := itemPlace list index
    let members ← object place item
    let id ← string (place ++ " id") (field members "id")
    if Assoc.contains read id then fail (.duplicate sort id)
    else
      let first ← entry id members
      readCatalogue list sort entry (read ++ [(id, first)]) (index + 1) items

namespace Item

def read (id : String) (members : Assoc Json) : Reading Item := do
  let place := "item '" ++ id ++ "'"
  let name ← string (place ++ " name") (field members "name")
  let description ← optionalString (place ++ " description") (field members "description")
  return { id, name, description := description.getD "", acquired := (field members "acquired").isSet }

def readAll : Json → Reading (Assoc Item)
  | .array items => readCatalogue "items" "item" read [] 0 items
  | _ => expected "items" .list

end Item

namespace Note

def read (id : String) (members : Assoc Json) : Reading Note := do
  let place := "note '" ++ id ++ "'"
  let title ← string (place ++ " title") (field members "title")
  let text ← optionalString (place ++ " text") (field members "text")
  return { id, title, text := text.getD "", unlocked := (field members "unlocked").isSet }

def readAll : Json → Reading (Assoc Note)
  | .array items => readCatalogue "notes" "note" read [] 0 items
  | _ => expected "notes" .list

end Note
end BranchingStory
