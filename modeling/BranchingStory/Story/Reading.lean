import BranchingStory.Told

/-!
# Reading authored values

Authored documents are checked member by member. The first member that is not what it has to be
stops the reading, with a complaint that names its place and what was expected there. Oddities that
can be passed over are told as notices.
-/

namespace BranchingStory

/-- What a place of a document has to hold. -/
inductive Expected where
  | object
  | string
  | optionalString
  | list
  | optionalList
  | stringList
  | text
  | kind
  | number
  | scalar
deriving DecidableEq

def Expected.phrase : Expected → String
  | object => "an object/dict"
  | string => "a string"
  | optionalString => "a string if provided"
  | list => "a list"
  | optionalList => "a list if provided"
  | stringList => "a list of strings"
  | text => "a string or a list of strings"
  | kind => "one of " ++ ", ".intercalate (NodeKind.all.map NodeKind.name)
  | number => "a number"
  | scalar => "a boolean, string or number"

/-- Why an authored value is refused. -/
inductive Complaint where
  | unexpected (place : String) (expected : Expected)
  | duplicate (sort id : String)
  | volumeTooLarge
  /-- Choices and reactions stand too deep inside each other. -/
  | tooDeep
deriving DecidableEq

def Complaint.message : Complaint → String
  | unexpected place expected => place ++ " must be " ++ expected.phrase ++ "."
  | duplicate sort id => "Duplicate " ++ sort ++ " id '" ++ id ++ "'."
  | volumeTooLarge => "int too large to convert to float"
  | tooDeep => "maximum recursion depth exceeded"

abbrev Reading (α : Type) := Attempt Complaint α

def itemPlace (place : String) (index : Nat) : String := place ++ "[" ++ toString index ++ "]"

namespace Reading

variable {α : Type}

def fail (complaint : Complaint) : Reading α := Attempt.fail complaint

def expected (place : String) (what : Expected) : Reading α := fail (.unexpected place what)

def tell (n : Notice) : Reading Unit := Attempt.tell n

/-- A member of an object; a missing one reads as null. -/
def field (members : Assoc Json) (key : String) : Json := (Assoc.get? members key).getD .null

def object (place : String) : Json → Reading (Assoc Json)
  | .object members => pure members
  | _ => expected place .object

def string (place : String) : Json → Reading String
  | .string s => pure s
  | _ => expected place .string

def optionalString (place : String) : Json → Reading (Option String)
  | .null => pure none
  | .string s => pure (some s)
  | _ => expected place .optionalString

def allStrings? : List Json → Option (List String)
  | [] => some []
  | .string s :: rest => (allStrings? rest).map (s :: ·)
  | _ => none

def idList (place : String) : Json → Reading (List String)
  | .null => pure []
  | .array items =>
    match allStrings? items with
    | some ss => pure ss
    | none => expected place .stringList
  | _ => expected place .stringList

def prose (place : String) : Json → Reading Prose
  | .null => pure (.single "")
  | .string s => pure (.single s)
  | .array items =>
    match allStrings? items with
    | some ss => pure (.paragraphs ss)
    | none => expected place .text
  | _ => expected place .text

/-- A list of things, each read under its own place; none if the list is missing. -/
def optionalList (place : String) (item : String → Json → Reading α) : Json → Reading (List α)
  | .null => pure []
  | .array items => items.zipIdx.mapM fun entry => item (itemPlace place entry.2) entry.1
  | _ => expected place .optionalList

/-- A volume; a missing one is full. -/
def volume (place : String) : Json → Reading Double
  | .null => pure .one
  | .number n =>
    match n.toDouble? with
    | some d => pure d
    | none => fail .volumeTooLarge
  | _ => expected place .number

def cue (place : String) : Json → Reading (Option Cue)
  | .null => pure none
  | .string id => pure (some ⟨id, .one⟩)
  | .object members => do
    let id ← string (place ++ " id") (field members "id")
    let volume ← volume (place ++ " volume") (field members "volume")
    return some ⟨id, volume⟩
  | _ => expected place .object

def speaker (place : String) : Json → Reading (Option SpeakerRef)
  | .null => pure none
  | .string id => pure (some (.named id))
  | .object members => do
    let id ← string (place ++ " id") (field members "id")
    let name ← optionalString (place ++ " name") (field members "name")
    let portrait ← optionalString (place ++ " portrait") (field members "portrait")
    return some (.inline ⟨id, name, portrait⟩)
  | _ => expected place .object

/-- The conditions among the members of an object; members that hold no flag value are passed over. -/
def conditionMembers (place : String) : List (String × Json) → Reading Conditions
  | [] => pure []
  | (flag, value) :: rest =>
    match FlagValue.ofJson? value with
    | some v => do return (flag, v) :: (← conditionMembers place rest)
    | none => do
      tell (.conditionNotScalar place flag)
      conditionMembers place rest

/-- Conditions; anything but an object is passed over and requires nothing. -/
def conditions (place : String) : Json → Reading Conditions
  | .null => pure []
  | .object members => conditionMembers place members
  | _ => do
    tell (.conditionsNotObject place)
    return []

def effectMembers (place : String) : List (String × Json) → Reading FlagValues
  | [] => pure []
  | (flag, value) :: rest =>
    match FlagValue.ofJson? value with
    | some v => do return (flag, v) :: (← effectMembers place rest)
    | none => expected (place ++ "." ++ flag) .scalar

/-- The flags to set; each has to have a flag value. -/
def effects (place : String) : Json → Reading FlagValues
  | .null => pure []
  | .object members => effectMembers place members
  | _ => expected place .object

def branch (place : String) (j : Json) : Reading Branch := do
  let members ← object place j
  let next ← optionalString (place ++ " next") (field members "next")
  let conditions ← conditions (place ++ " conditions") (field members "conditions")
  return { next, conditions }

def kind (place : String) : Json → Reading NodeKind
  | .string s =>
    match NodeKind.ofName? s with
    | some kind => pure kind
    | none => expected place .kind
  | _ => expected place .kind

end Reading
end BranchingStory
