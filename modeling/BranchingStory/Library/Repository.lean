import BranchingStory.Library.Load
import BranchingStory.Places
import BranchingStory.Story.Authored
import BranchingStory.Story.Catalogue

/-!
# Repositories

A repository answers questions about one authored document. It loads the document when it is first
asked, tries again after a failure, and keeps what it has loaded once: later changes of the file are
not seen. It keeps two things apart, the definitions by id and what they were taken from, such as the
graph of a story.
-/

namespace BranchingStory

/-- An authored document: the name of its file, the shapes it may have, what it is built into with room for so
many nodes and choices inside each other, and the definitions that this holds. -/
structure Source (α β : Type) where
  name : String
  shapes : List Shape
  build : Nat → Json → Reading α
  entries : α → Assoc β

namespace Source

def characters : Source Cast Character := ⟨"characters.json", [.object], fun _ => Cast.read, id⟩

def flags : Source FlagValues FlagValue := ⟨"flags.json", [.object], fun _ => FlagValues.readDefaults, id⟩

def items : Source (Assoc Item) Item := ⟨"items.json", [.array], fun _ => Item.readAll, id⟩

def notes : Source (Assoc Note) Note := ⟨"notes.json", [.array], fun _ => Note.readAll, id⟩

def story : Source Graph Node := ⟨"story.json", [.object, .array], Graph.readWithin, Graph.byId⟩

end Source

/-- Why a repository has no answer. -/
inductive LibraryFault where
  | load (fault : LoadFault)
  | complaint (complaint : Complaint)
  | noEntry (id : String)
  /-- There are definitions, but not what they were taken from. -/
  | nothingAside
deriving DecidableEq

def LibraryFault.message : LibraryFault → String
  | load fault => fault.message
  | complaint c => c.message
  | noEntry id => Text.quoted id
  | nothingAside => ""

/-- An answer of a repository. -/
abbrev Lookup (α : Type) := Attempt LibraryFault α

namespace Source

variable {α β : Type}

def load (s : Source α β) (directory : Path) (d : Disk) : Lookup α := do
  let document ← Attempt.ofExcept ((d.load (directory.file s.name) s.shapes).mapError .load)
  (s.build d.room document).mapError .complaint

end Source

structure Repository (α β : Type) where
  source : Source α β
  /-- The directory, if one is asked for. -/
  directory : Option Path := none
  /-- The definitions by id, once they are loaded. -/
  definitions : Option (Assoc β) := none
  /-- What the document was built into. -/
  aside : Option α := none

namespace Repository

variable {α β : Type} (r : Repository α β) (env : Environment) (d : Disk)

/-- The definitions, and the repository that has them: as it is, or with what is loaded now. -/
def ensureLoaded : Lookup (Assoc β × Repository α β) :=
  match r.definitions with
  | some definitions => pure (definitions, r)
  | none => do
    let a ← r.source.load (env.definitions r.directory) d
    let definitions := r.source.entries a
    return (definitions, { r with definitions := some definitions, aside := some a })

/-- The repository after it has been asked; a failure leaves it as it was. -/
def asked : Repository α β := ((r.ensureLoaded env d).result.toOption.map Prod.snd).getD r

def whole : Lookup α := do
  let (_, r) ← r.ensureLoaded env d
  match r.aside with
  | some a => return a
  | none => Attempt.fail .nothingAside

def entries : Lookup (Assoc β) := Prod.fst <$> r.ensureLoaded env d

def all : Lookup (List β) := Assoc.values <$> r.entries env d

def get (id : String) : Lookup β := do
  let entries ← r.entries env d
  match Assoc.get? entries id with
  | some definition => return definition
  | none => Attempt.fail (.noEntry id)

end Repository
end BranchingStory
