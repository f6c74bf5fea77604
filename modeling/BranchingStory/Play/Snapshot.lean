import BranchingStory.Play.History
import BranchingStory.Story.Authored
import BranchingStory.Text.Numeral

/-!
# Snapshots

A snapshot is the position and the history as a document. Whether a choice is pending is not written:
it follows from the graph. Reading accepts the versioned form and an older one that only lists the
ids of recent nodes; the blocks of the older form are made from the graph and are not frozen.

Members whose value is empty are left out inside choices and reactions, so what is read back may
differ from what was written in empty values only.
-/

namespace BranchingStory

def snapshotVersion : Int := 1

/-! ## Writing -/

/-- A member that is written only if its value is worth it. -/
def memberIf (condition : Bool) (name : String) (value : Json) : List (String × Json) :=
  if condition then [(name, value)] else []

/-- A member that is written only if there is a value. -/
def member? {α : Type} (name : String) (toJson : α → Json) : Option α → List (String × Json)
  | none => []
  | some a => [(name, toJson a)]

def FlagValues.toJson (values : FlagValues) : Json := .object (Flags.ofValues values)

def Cue.toJson (c : Cue) : Json := .object [("id", .string c.id), ("volume", .double c.volume)]

def SpeakerRef.toJson : SpeakerRef → Json
  | .named id => .string id
  | .inline c =>
    .object (("id", .string c.id) :: (member? "name" .string c.name ++ member? "portrait" .string c.portrait))

def SpeakerRef.optionToJson : Option SpeakerRef → Json
  | none => .null
  | some ref => ref.toJson

def Identity.toJson (i : Identity) : Json :=
  .object [("id", .ofString? i.id), ("name", .string i.name), ("portrait", .string i.portrait)]

def Branch.toJson (b : Branch) : Json :=
  .object (("next", .ofString? b.next) ::
    memberIf (!b.conditions.isEmpty) "conditions" (FlagValues.toJson b.conditions))

/-- A list of ids, left out if it is empty. -/
def idsMember (name : String) (ids : List String) : List (String × Json) :=
  memberIf (!ids.isEmpty) name (.strings ids)

mutual
/-- The authored form of a node, without its empty members. -/
def Node.toJson : Node → Json
  | ⟨id, kind, text, speaker, conditions, next, branches, effects, itemsAdded, itemsRemoved,
      notesAdded, ambience, sound, choices, graphic⟩ =>
    .object (("type", .string kind.name) ::
      (member? "id" .string (nonEmpty? id) ++ memberIf (!text.isEmpty) "text" text.toJson ++
        member? "character" SpeakerRef.toJson speaker ++
        memberIf (!conditions.isEmpty) "conditions" (FlagValues.toJson conditions) ++
        member? "next" .string (nonEmpty? next) ++
        memberIf (!branches.isEmpty) "nextIf" (.array (branches.map Branch.toJson)) ++
        memberIf (!effects.isEmpty) "effects" (FlagValues.toJson effects) ++
        idsMember "inventoryAdd" itemsAdded ++ idsMember "inventoryRemove" itemsRemoved ++
        idsMember "notesAdd" notesAdded ++ member? "setAmbience" Cue.toJson ambience ++
        member? "playSFX" Cue.toJson sound ++ Node.choicesMember choices ++
        member? "graphic" .string (nonEmpty? graphic)))

def Node.choicesMember : List Choice → List (String × Json)
  | [] => []
  | choice :: choices => [("choices", .array (Choice.toJson choice :: Choice.allToJson choices))]

/-- The authored form of a choice, without its empty members. -/
def Choice.toJson : Choice → Json
  | ⟨text, next, effects, reactions⟩ =>
    .object (("text", .string text) ::
      (member? "next" .string (nonEmpty? next) ++
        memberIf (!effects.isEmpty) "effects" (FlagValues.toJson effects) ++ Choice.reactionsMember reactions))

def Choice.allToJson : List Choice → List Json
  | [] => []
  | choice :: choices => Choice.toJson choice :: Choice.allToJson choices

def Choice.reactionsMember : List Node → List (String × Json)
  | [] => []
  | node :: nodes => [("reaction", .array (Node.toJson node :: Node.allToJson nodes))]

def Node.allToJson : List Node → List Json
  | [] => []
  | node :: nodes => Node.toJson node :: Node.allToJson nodes
end

def Block.toJson (b : Block) : Json :=
  .object ([("id", .ofString? b.id), ("type", .string b.kind.name), ("text", b.text.toJson),
      ("character", SpeakerRef.optionToJson b.speaker),
      ("frozenCharacter", b.frozen.elim .null Identity.toJson)] ++
    memberIf b.isPrompt "choices" (.array (Choice.allToJson b.choices)) ++
    member? "graphic" .string (nonEmpty? b.graphic))

def History.snapshot (h : History) : Assoc Json :=
  [("version", .int snapshotVersion), ("currentNodeId", .ofString? h.current),
   ("renderedBlocks", .array ((latest h.bound h.blocks).map Block.toJson))]

/-! ## Reading -/

inductive BlockFault where
  | notObject
  | id
  | kind
  | text
  | graphic
  | identity
  | identityId
  | identityText
deriving DecidableEq

inductive SnapshotFault where
  | notObject
  | position
  | versionNotInteger
  | versionUnsupported (version : Int)
  | blocksNotList
  | noHistory
  | recentIdsNotList
  | block (index : Nat) (fault : BlockFault)
  | complaint (complaint : Complaint)
deriving DecidableEq

def blockPlace (index : Nat) : String := itemPlace "renderedBlocks" index

def BlockFault.message : BlockFault → String
  | notObject => " must be an object."
  | id => ".id must be a string or null."
  | kind => ".type is not a known node type."
  | text => ".text must be a string or a list of strings."
  | graphic => ".graphic must be a string or null."
  | identity => ".frozenCharacter must be an object or null."
  | identityId => ".frozenCharacter.id must be a string."
  | identityText => ".frozenCharacter name and portrait must be strings."

def SnapshotFault.message : SnapshotFault → String
  | notObject => "Story snapshot must be a JSON object."
  | position => "currentNodeId must be a string or null."
  | versionNotInteger => "Snapshot version must be an integer."
  | versionUnsupported version => "Unsupported story snapshot version: " ++ toString version ++ "."
  | blocksNotList => "renderedBlocks must be a list."
  | noHistory => "Snapshot has neither renderedBlocks nor recentNodeIds."
  | recentIdsNotList => "recentNodeIds must be a list."
  | block index fault => blockPlace index ++ fault.message
  | complaint c => c.message

/-- How restoring can fail: the snapshot is malformed; a volume in it is too large for a double; its
version has too many digits to be told; its choices nest too deep; or the history is given no room. -/
inductive RestoreFault where
  | snapshot (fault : SnapshotFault)
  | volumeTooLarge
  | versionTooLong
  | tooDeep
  | noRoom
deriving DecidableEq

def RestoreFault.message : RestoreFault → String
  | snapshot fault => fault.message
  | volumeTooLarge => Complaint.message .volumeTooLarge
  | versionTooLong => Numeral.untoldMessage
  | tooDeep => Complaint.message .tooDeep
  | noRoom => History.boundMessage

def RestoreFault.ofComplaint : Complaint → RestoreFault
  | .volumeTooLarge => .volumeTooLarge
  | .tooDeep => .tooDeep
  | c => .snapshot (.complaint c)

abbrev Restoring (α : Type) := Attempt RestoreFault α

namespace Restoring

variable {α : Type}

def refuse (fault : SnapshotFault) : Restoring α := Attempt.fail (.snapshot fault)

def ofReading (x : Reading α) : Restoring α := x.mapError .ofComplaint

/-- A member that is null, missing or a string. -/
def optionalString (fault : SnapshotFault) : Json → Restoring (Option String)
  | .null => pure none
  | .string s => pure (some s)
  | _ => refuse fault

def prose (index : Nat) : Json → Restoring Prose
  | .null => pure (.single "")
  | .string s => pure (.single s)
  | .array items =>
    match Reading.allStrings? items with
    | some ss => pure (.paragraphs ss)
    | none => refuse (.block index .text)
  | _ => refuse (.block index .text)

/-- A portrait that is not set reads as the empty text. -/
def identityTexts (index : Nat) (id : Option String) : Json → Json → Restoring Identity
  | .string name, portrait =>
    if portrait.isSet then
      match portrait with
      | .string portrait => pure ⟨id, name, portrait⟩
      | _ => refuse (.block index .identityText)
    else pure ⟨id, name, ""⟩
  | _, _ => refuse (.block index .identityText)

def identity (index : Nat) : Json → Restoring (Option Identity)
  | .null => pure none
  | .object members => do
    let id ← optionalString (.block index .identityId) (Reading.field members "id")
    some <$> identityTexts index id (Reading.field members "name") (Reading.field members "portrait")
  | _ => refuse (.block index .identity)

def kind (index : Nat) : Json → Restoring NodeKind
  | .string s =>
    match NodeKind.ofName? s with
    | some kind => pure kind
    | none => refuse (.block index .kind)
  | _ => refuse (.block index .kind)

/-- The choices of a block, as `read` reads them; only those of a choice prompt count, and only if they
are a list. -/
def choices (read : String → Json → Reading (List Choice)) (index : Nat) (kind : NodeKind) :
    Json → Restoring (List Choice)
  | .array items =>
    if kind = .dialogueChoice then ofReading (read (blockPlace index ++ ".choices") (.array items))
    else pure []
  | _ => pure []

/-- The frozen identity of a block, under its present or its older name. -/
def frozenMember (members : Assoc Json) : Json :=
  match Assoc.get? members "frozenCharacter" with
  | some value => value
  | none => Reading.field members "_frozenCharacter"

/-- A speaker that is missing is taken from the frozen identity. -/
def speakerOr (speaker : Option SpeakerRef) (frozen : Option Identity) : Option SpeakerRef :=
  match speaker with
  | some ref => some ref
  | none => (frozen.bind Identity.id).map .named

section Blocks

variable (read : String → Json → Reading (List Choice))

def block (index : Nat) : Json → Restoring Block
  | .object members => do
    let id ← optionalString (.block index .id) (Reading.field members "id")
    let kind ← kind index (Reading.field members "type")
    let text ← prose index (Reading.field members "text")
    let frozen ← identity index (frozenMember members)
    let speaker ← ofReading (Reading.speaker (blockPlace index ++ ".character")
      (Reading.field members "character"))
    let choices ← choices read index kind (Reading.field members "choices")
    let graphic ← optionalString (.block index .graphic) (Reading.field members "graphic")
    return { id, kind, text, speaker := speakerOr speaker frozen, frozen, choices, graphic }
  | _ => refuse (.block index .notObject)

def blocks (read : String → Json → Reading (List Choice)) (index : Nat) : List Json → Restoring (List Block)
  | [] => pure []
  | item :: items => do
    let first ← block read index item
    return first :: (← blocks read (index + 1) items)

end Blocks

/-- The blocks of the nodes that a list of recent ids names; other entries are dropped. -/
def recentBlocks (g : Graph) : List Json → Restoring (List Block)
  | [] => pure []
  | item :: items =>
    let node := match item with
      | .string id => g.node? id
      | _ => none
    match node with
    | some n => do return Block.ofNode n :: (← recentBlocks g items)
    | none => do
      Attempt.tell (.historyEntryDropped item)
      recentBlocks g items

/-- The end of a list that a bound keeps; a bound of zero keeps everything, and a negative one drops
that many items. -/
def kept {α : Type} (bound : Int) (items : List α) : List α :=
  if 0 < bound then latest bound.toNat items else items.drop (-bound).toNat

def position (g : Graph) (members : Assoc Json) : Restoring (Option String) :=
  match Assoc.get? members "currentNodeId" with
  | none => pure g.entry
  | some .null => pure none
  | some (.string id) => pure (some id)
  | some _ => refuse .position

/-- The version, if there is one, has to be the present one. -/
def checkVersion : Json → Restoring Unit
  | .null => pure ()
  | .number (.int version) =>
    if version = snapshotVersion then pure ()
    else if Numeral.canBeTold version then refuse (.versionUnsupported version)
    else Attempt.fail .versionTooLong
  | _ => refuse .versionNotInteger

def historyBlocks (read : String → Json → Reading (List Choice)) (g : Graph) (bound : Int)
    (members : Assoc Json) : Restoring (List Block) := do
  if (Reading.field members "version" matches .null) && !Assoc.contains members "renderedBlocks" then
    match Reading.field members "recentNodeIds" with
    | .null => refuse .noHistory
    | .array items => recentBlocks g items
    | _ => refuse .recentIdsNotList
  else
    checkVersion (Reading.field members "version")
    match Reading.field members "renderedBlocks" with
    | .array items => blocks read 0 (kept bound items)
    | _ => refuse .blocksNotList

end Restoring

def positionNotices (g : Graph) : Option String → List Notice
  | some id => if g.contains id then [] else [.positionLost id]
  | none => []

/-- The history that a snapshot describes, with the choices of its blocks as `read` reads them; a choice
is pending exactly if the position is a choice prompt of the graph. -/
def History.ofSnapshotBy (read : String → Json → Reading (List Choice)) (g : Graph) (bound : Int) :
    Json → Restoring History
  | .object members => do
    let current ← Restoring.position g members
    let blocks ← Restoring.historyBlocks read g bound members
    let waiting := (g.find? current).any Node.isPrompt
    (⟨.ok (), positionNotices g current⟩ : Restoring Unit)
    match History.make? current blocks waiting bound with
    | some h => return h
    | none => Attempt.fail .noRoom
  | _ => Restoring.refuse .notObject

/-- The history that a snapshot describes, however deep its choices nest. -/
def History.ofSnapshot (g : Graph) (bound : Int) (snapshot : Json) : Restoring History :=
  ofSnapshotBy Node.choicesOf g bound snapshot

/-- The same with room for so many nodes and choices inside each other. What a file holds has no more of
them than its own limit allows. -/
def History.ofSnapshotWithin (room : Nat) (g : Graph) (bound : Int) (snapshot : Json) : Restoring History :=
  ofSnapshotBy (Node.choicesWithin room) g bound snapshot

end BranchingStory
