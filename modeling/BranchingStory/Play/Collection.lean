import BranchingStory.Told

/-!
# Items and notes

The player holds items and unlocks notes. Both are sets of ids within a catalogue; an id outside the
catalogue is ignored with a notice, since a story may mention what was cut from it. An empty
catalogue accepts every id.
-/

namespace BranchingStory

inductive CollectionKind where
  | items
  | notes
deriving DecidableEq

/-- The notice that an id is not in the catalogue. -/
def CollectionKind.unknown : CollectionKind → String → Notice
  | items => .unknownItem
  | notes => .unknownNote

structure Collection where
  kind : CollectionKind
  catalogue : List String := []
  held : List String := []
deriving DecidableEq

namespace Collection

variable (c : Collection)

def accepts (id : String) : Bool := c.catalogue.isEmpty || c.catalogue.contains id

def contains (id : String) : Bool := c.held.contains id

def add (id : String) : Told Collection :=
  if c.accepts id then ⟨{ c with held := if c.held.contains id then c.held else c.held ++ [id] }, []⟩
  else ⟨c, [c.kind.unknown id]⟩

def remove (id : String) : Collection := { c with held := c.held.filter (· != id) }

def addAll (c : Collection) : List String → Told Collection
  | [] => pure c
  | id :: ids => do
    let c ← c.add id
    addAll c ids

def removeAll (ids : List String) : Collection := ids.foldl remove c

/-- Hold exactly the given ids, as far as the catalogue accepts them. -/
def restore (ids : List String) : Told Collection := addAll { c with held := [] } ids

/-- The held ids in catalogue order, or sorted by code point without a catalogue. -/
def ids : List String :=
  if c.catalogue.isEmpty then c.held.mergeSort (fun a b => decide (a ≤ b))
  else c.catalogue.filter c.held.contains

/-- A collection over a catalogue, whose repetitions do not matter, with some ids held. -/
def make (kind : CollectionKind) (catalogue held : List String) : Told Collection :=
  addAll { kind, catalogue := catalogue.eraseDups } held

end Collection
end BranchingStory
