import BranchingStory.Story.Flag

/-!
# Nodes and choices

A story is written as nodes. A node shows some text, may be gated by conditions, may change the
world, and names the nodes that follow it. A choice prompt offers choices, and a choice may hold
nodes of its own, the reactions that are shown right after it is taken.
-/

namespace BranchingStory

/-- How a node is shown. -/
inductive NodeKind where
  | singleParagraph
  | multipleParagraphs
  | characterDialogue
  | dialogueChoice
deriving DecidableEq

namespace NodeKind

def name : NodeKind → String
  | singleParagraph => "singleParagraph"
  | multipleParagraphs => "multipleParagraphs"
  | characterDialogue => "characterDialogue"
  | dialogueChoice => "dialogueChoice"

def all : List NodeKind := [singleParagraph, multipleParagraphs, characterDialogue, dialogueChoice]

def ofName? (s : String) : Option NodeKind := all.find? fun kind => kind.name == s

@[simp] theorem ofName?_name (kind : NodeKind) : ofName? kind.name = some kind := by
  cases kind <;> decide

end NodeKind

/-- The text of a node: one piece, or a list of paragraphs. -/
inductive Prose where
  | single (s : String)
  | paragraphs (ss : List String)
deriving DecidableEq

namespace Prose

def isEmpty : Prose → Bool
  | single s => s == ""
  | paragraphs ss => ss.isEmpty

/-- The paragraphs to show; an empty single text has none. -/
def toList : Prose → List String
  | single s => if s = "" then [] else [s]
  | paragraphs ss => ss

def toJson : Prose → Json
  | single s => .string s
  | paragraphs ss => .strings ss

end Prose

/-- A sound: an ambience to change to, or an effect to play once. -/
structure Cue where
  id : String
  volume : Double := .one
deriving DecidableEq

structure InlineCharacter where
  id : String
  name : Option String := none
  portrait : Option String := none
deriving DecidableEq

/-- Who speaks: a character of the cast by id, or one written out in place. -/
inductive SpeakerRef where
  | named (id : String)
  | inline (character : InlineCharacter)
deriving DecidableEq

def SpeakerRef.id : SpeakerRef → String
  | named id => id
  | inline character => character.id

/-- A conditional successor. -/
structure Branch where
  next : Option String := none
  conditions : Conditions := []
deriving DecidableEq

mutual
structure Node where
  id : Option String := none
  kind : NodeKind
  text : Prose := .single ""
  speaker : Option SpeakerRef := none
  conditions : Conditions := []
  next : Option String := none
  branches : List Branch := []
  effects : FlagValues := []
  itemsAdded : List String := []
  itemsRemoved : List String := []
  notesAdded : List String := []
  ambience : Option Cue := none
  sound : Option Cue := none
  choices : List Choice := []
  graphic : Option String := none

structure Choice where
  text : String
  next : Option String := none
  effects : FlagValues := []
  reactions : List Node := []
end

/-- An id or a target counts only if it is there and not empty. -/
def nonEmpty? : Option String → Option String
  | some s => if s = "" then none else some s
  | none => none

theorem nonEmpty?_eq_some {id : Option String} {s : String} :
    nonEmpty? id = some s ↔ id = some s ∧ s ≠ "" := by
  cases id with
  | none => simp [nonEmpty?]
  | some t =>
    by_cases ht : t = ""
    · subst ht
      constructor
      · intro h
        exact absurd h.symm (Option.some_ne_none s)
      · rintro ⟨h, hs⟩
        exact absurd (Option.some.inj h).symm hs
    · simp only [nonEmpty?, if_neg ht, Option.some.injEq]
      exact ⟨fun h => ⟨h, h ▸ ht⟩, And.left⟩

theorem nonEmpty?_eq_none {id : Option String} : nonEmpty? id = none ↔ id = none ∨ id = some "" := by
  cases id with
  | none => simp [nonEmpty?]
  | some t => by_cases ht : t = "" <;> simp [nonEmpty?, ht]

@[simp] theorem nonEmpty?_nonEmpty? (id : Option String) : nonEmpty? (nonEmpty? id) = nonEmpty? id := by
  cases h : nonEmpty? id with
  | none => rfl
  | some s => exact if_neg (nonEmpty?_eq_some.mp h).2

namespace Node

/-- A choice prompt waits for an answer once it is shown. -/
def isPrompt (n : Node) : Bool := n.kind == .dialogueChoice

/-- Whether the story can go on after a node. Branches count even when none of them will hold. -/
def hasSuccessor (n : Node) : Bool := (nonEmpty? n.next).isSome || !n.branches.isEmpty

def satisfiedBy (n : Node) (flags : Flags) : Bool := flags.meet n.conditions

end Node
end BranchingStory
