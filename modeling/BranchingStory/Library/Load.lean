import BranchingStory.Disk.Basic
import BranchingStory.Story.Reading

/-!
# Loading authored documents

A document is read from its file and has to have one of the shapes that its source expects. Every
way in which this can fail is a fault of its own.
-/

namespace BranchingStory

/-- Why a document cannot be loaded. -/
inductive LoadFault where
  | document (path : Path) (fault : DocumentFault)
  | shape (path : Path) (expected : List Shape)
deriving DecidableEq

namespace LoadFault

/-- The words for a fault of one kind; what is no fault of the file is passed on as it is. -/
def documentMessage (path reason : String) : FaultKind → String
  | .missing => "Story data file not found: " ++ path
  | .malformed => path ++ " is not valid JSON: " ++ reason
  | .system => "Unable to read story data file " ++ path ++ ": " ++ reason
  | .value | .depth => reason

def message : LoadFault → String
  | document path fault => documentMessage path.text fault.message fault.kind
  | shape path expected =>
    "Expected a top-level " ++ " or ".intercalate (expected.map Shape.name) ++ " in " ++ path.text ++ "."

end LoadFault

namespace Disk

variable (d : Disk)

def load (path : Path) (expected : List Shape) : Except LoadFault Json := do
  let document ← (d.readDocument path).mapError (.document path)
  if expected.any (·.fits document) then return document else .error (.shape path expected)

def loadAny (path : Path) : Except LoadFault Json := (d.readDocument path).mapError (.document path)

end Disk
end BranchingStory
