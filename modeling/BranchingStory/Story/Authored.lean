import BranchingStory.Story.Graph
import BranchingStory.Story.Reading

/-!
# The authored form of nodes and graphs

Nodes and choices contain each other, so they are read together. The members that are neither
choices nor reactions are read by `Authored.node` and `Authored.choice`, which take the nested part
as an argument; the recursion itself only finds that part. `Node.readWithin` and `Choice.readWithin`
read the same with a limit to the nesting.
-/

namespace BranchingStory
namespace Authored

open Reading

def nodePlace (place : String) (id : Option String) : String :=
  match nonEmpty? id with
  | some id => "story node '" ++ id ++ "'"
  | none => place

/-- A node from its members; `choices` reads the choices once the node's place is known. -/
def node (place : String) (members : Assoc Json) (choices : String → Reading (List Choice)) :
    Reading Node := do
  let id ← optionalString (place ++ " id") (field members "id")
  let place := nodePlace place id
  let kind ← kind (place ++ " type") (field members "type")
  let choices ← choices place
  let text ← prose (place ++ " text") (field members "text")
  let speaker ← speaker (place ++ " character") (field members "character")
  let conditions ← conditions (place ++ " conditions") (field members "conditions")
  let next ← optionalString (place ++ " next") (field members "next")
  let branches ← optionalList (place ++ " nextIf") branch (field members "nextIf")
  let effects ← effects (place ++ " effects") (field members "effects")
  let itemsAdded ← idList (place ++ " inventoryAdd") (field members "inventoryAdd")
  let itemsRemoved ← idList (place ++ " inventoryRemove") (field members "inventoryRemove")
  let notesAdded ← idList (place ++ " notesAdd") (field members "notesAdd")
  let ambience ← cue (place ++ " setAmbience") (field members "setAmbience")
  let sound ← cue (place ++ " playSFX") (field members "playSFX")
  let graphic ← optionalString (place ++ " graphic") (field members "graphic")
  return { id, kind, text, speaker, conditions, next, branches, effects, itemsAdded, itemsRemoved,
           notesAdded, ambience, sound, choices, graphic }

/-- A choice from its members; the reactions are read before the rest. -/
def choice (place : String) (members : Assoc Json) (reactions : Reading (List Node)) :
    Reading Choice := do
  let reactions ← reactions
  let text ← string (place ++ " text") (field members "text")
  let next ← optionalString (place ++ " next") (field members "next")
  let effects ← effects (place ++ " effects") (field members "effects")
  return { text, next, effects, reactions }

end Authored

mutual
def Node.read (place : String) : Json → Reading Node
  | .object members => Authored.node place members fun place => Node.choicesAmong place members
  | _ => .expected place .object

/-- The choices of the first member that is called so. -/
def Node.choicesAmong (place : String) : List (String × Json) → Reading (List Choice)
  | [] => pure []
  | (key, value) :: rest =>
    if key = "choices" then Node.choicesOf (place ++ " choices") value
    else Node.choicesAmong place rest

def Node.choicesOf (place : String) : Json → Reading (List Choice)
  | .null => pure []
  | .array items => Node.choiceItems place 0 items
  | _ => .expected place .optionalList

def Node.choiceItems (place : String) (index : Nat) : List Json → Reading (List Choice)
  | [] => pure []
  | item :: items => do
    let choice ← Choice.read (itemPlace place index) item
    return choice :: (← Node.choiceItems place (index + 1) items)

def Choice.read (place : String) : Json → Reading Choice
  | .object members => Authored.choice place members (Choice.reactionsAmong place members)
  | _ => .expected place .object

/-- The reactions of the first member that is called so. -/
def Choice.reactionsAmong (place : String) : List (String × Json) → Reading (List Node)
  | [] => pure []
  | (key, value) :: rest =>
    if key = "reaction" then Choice.reactionsOf (place ++ " reaction") value
    else Choice.reactionsAmong place rest

def Choice.reactionsOf (place : String) : Json → Reading (List Node)
  | .null => pure []
  | .array items => Choice.reactionItems place 0 items
  | _ => .expected place .optionalList

def Choice.reactionItems (place : String) (index : Nat) : List Json → Reading (List Node)
  | [] => pure []
  | item :: items => do
    let node ← Node.read (itemPlace place index) item
    return node :: (← Choice.reactionItems place (index + 1) items)
end

mutual
/-- The node that an authored value describes, with room for so many nodes and choices inside each
other. -/
def Node.readWithin : Nat → String → Json → Reading Node
  | 0, _, _ => .fail .tooDeep
  | room + 1, place, .object members =>
    Authored.node place members fun place =>
      .optionalList (place ++ " choices") (Choice.readWithin room) (Reading.field members "choices")
  | _ + 1, place, _ => .expected place .object

/-- The choice that an authored value describes, with so much room. -/
def Choice.readWithin : Nat → String → Json → Reading Choice
  | 0, _, _ => .fail .tooDeep
  | room + 1, place, .object members =>
    Authored.choice place members
      (.optionalList (place ++ " reaction") (Node.readWithin room) (Reading.field members "reaction"))
  | _ + 1, place, _ => .expected place .object
end

def Node.choicesWithin (room : Nat) (place : String) (j : Json) : Reading (List Choice) :=
  .optionalList place (Choice.readWithin room) j

theorem Node.choicesAmong_eq (place : String) (members : List (String × Json)) :
    Node.choicesAmong place members =
      Node.choicesOf (place ++ " choices") (Reading.field members "choices") := by
  induction members with
  | nil => simp [Node.choicesAmong, Reading.field, Node.choicesOf]
  | cons entry rest ih =>
    obtain ⟨key, value⟩ := entry
    by_cases h : key = "choices"
    · simp [Node.choicesAmong, Reading.field, Assoc.get?, h]
    · simpa [Node.choicesAmong, Reading.field, Assoc.get?, h] using ih

theorem Choice.reactionsAmong_eq (place : String) (members : List (String × Json)) :
    Choice.reactionsAmong place members =
      Choice.reactionsOf (place ++ " reaction") (Reading.field members "reaction") := by
  induction members with
  | nil => simp [Choice.reactionsAmong, Reading.field, Choice.reactionsOf]
  | cons entry rest ih =>
    obtain ⟨key, value⟩ := entry
    by_cases h : key = "reaction"
    · simp [Choice.reactionsAmong, Reading.field, Assoc.get?, h]
    · simpa [Choice.reactionsAmong, Reading.field, Assoc.get?, h] using ih

namespace Graph

def nodesBy (readNode : String → Json → Reading Node) : Json → Reading (List Node)
  | .array items =>
    items.zipIdx.mapM fun entry => readNode (itemPlace "story nodes" entry.2) entry.1
  | _ => .expected "story nodes" .list

/-- A graph is a list of nodes, or an object that holds one and may name an initial ambience. -/
def readBy (readNode : String → Json → Reading Node) : Json → Reading Graph
  | .object members => do
    let initialAmbience ← Reading.cue "story initialAmbience" (Reading.field members "initialAmbience")
    let nodes ← nodesBy readNode ((Assoc.get? members "nodes").getD (.array []))
    return { nodes, initialAmbience }
  | j => do
    let nodes ← nodesBy readNode j
    return { nodes }

def read : Json → Reading Graph := readBy Node.read

/-- The graph that an authored value describes, with room for so many nodes and choices inside each other. -/
def readWithin (room : Nat) : Json → Reading Graph := readBy (Node.readWithin room)

end Graph
end BranchingStory
