import BranchingStory.Told

/-!
# The cast and its names

A character may reveal its name step by step: its name states are tried in order, and the first one
whose flag is set gives the name. What is shown is an identity, and it always has a name.
-/

namespace BranchingStory

/-- One stage of a progressive name reveal. -/
structure NameState where
  label : Option String := none
  condition : Option String := none
deriving DecidableEq

structure Character where
  id : String
  name : Option String := none
  portrait : String := ""
  states : List NameState := []
deriving DecidableEq

/-- The characters of a story by id. -/
abbrev Cast := Assoc Character

/-- Who is shown as speaking. -/
structure Identity where
  id : Option String
  name : String
  portrait : String := ""
deriving DecidableEq

def unknownName : String := "???"

def nameOr (names : List (Option String)) : String :=
  (names.findSome? nonEmpty?).getD unknownName

namespace Character

/-- The stage of the reveal that shows: the first whose flag is set, else the first without a flag,
else the first. -/
def stage? (c : Character) (isSet : String → Bool) : Option NameState :=
  (c.states.find? fun state => (nonEmpty? state.condition).any isSet).or
    ((c.states.find? fun state => (nonEmpty? state.condition).isNone).or c.states.head?)

def shownName (c : Character) (isSet : String → Bool) : String :=
  match c.stage? isSet with
  | some stage => nameOr [stage.label, c.name]
  | none => nameOr [c.name]

end Character

namespace SpeakerRef

/-- The identity a reference shows while the flags in `isSet` are set. A character of the cast shows
its own name and portrait even if the reference carries others. -/
def identity (ref : SpeakerRef) (cast : Cast) (isSet : String → Bool) : Identity :=
  match Assoc.get? cast ref.id with
  | some character => ⟨some ref.id, character.shownName isSet, character.portrait⟩
  | none =>
    match ref with
    | .inline character => ⟨some character.id, nameOr [character.name], character.portrait.getD ""⟩
    | .named id => ⟨some id, unknownName, ""⟩

/-- A bare id that is not in the cast is worth a notice. -/
def notices (ref : SpeakerRef) (cast : Cast) : List Notice :=
  match ref with
  | .named id => if Assoc.contains cast id then [] else [.unknownCharacter id]
  | .inline _ => []

/-- The identity of a reference that may be missing, with the notices told about it. -/
def resolve (ref : Option SpeakerRef) (cast : Cast) (isSet : String → Bool) : Told (Option Identity) :=
  match ref with
  | none => pure none
  | some ref => ⟨some (ref.identity cast isSet), ref.notices cast⟩

end SpeakerRef

theorem nameOr_ne_empty (names : List (Option String)) : nameOr names ≠ "" := by
  unfold nameOr
  cases h : names.findSome? nonEmpty? with
  | none => simp [unknownName]
  | some name =>
    obtain ⟨candidate, _, hc⟩ := List.exists_of_findSome?_eq_some h
    rintro rfl
    cases candidate with
    | none => simp [nonEmpty?] at hc
    | some s =>
      by_cases hs : s = "" <;> simp_all [nonEmpty?]

end BranchingStory
