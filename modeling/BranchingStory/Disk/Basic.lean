import BranchingStory.Disk.Path
import BranchingStory.Json.Reader
import BranchingStory.Json.Text
import BranchingStory.Text.Lines
import BranchingStory.Text.Utf8

/-!
# The disk

A disk holds directories and files, each at a location that is reached from the working directory or
from the root. Every operation names the trouble that stops it, and the path that was asked for.
Without trouble, what is read is what was last written.
-/

namespace BranchingStory

/-- The parts that lead to an entry. A location below the root starts with a slash, and the working
directory has no part. -/
abbrev Location := Array String

inductive Entry where
  | directory
  | file (bytes : List UInt8)
deriving DecidableEq

structure Disk where
  entries : List (Location × Entry) := []
  /-- How many arrays and objects may stand inside the outermost one of a document that is read. -/
  nesting : Nat := 980
  /-- How many nodes and choices may stand inside each other in a story that is read. -/
  room : Nat := 480

/-- What stops a disk operation on its way. -/
inductive Trouble where
  | missing
  | present
  | notDirectory
  | isDirectory
  | nameTooLong
deriving DecidableEq

def Trouble.number : Trouble → Nat
  | missing => 2
  | present => 17
  | notDirectory => 20
  | isDirectory => 21
  | nameTooLong => 36

def Trouble.text : Trouble → String
  | missing => "No such file or directory"
  | present => "File exists"
  | notDirectory => "Not a directory"
  | isDirectory => "Is a directory"
  | nameTooLong => "File name too long"

/-- Why a disk operation fails: a trouble blocks the way to a path, or the path holds the null
character, with which no name can be looked up. -/
inductive DiskFault where
  | blocked (trouble : Trouble) (path : Path)
  | nullCharacter
deriving DecidableEq

namespace DiskFault

def message : DiskFault → String
  | blocked trouble path =>
    "[Errno " ++ toString trouble.number ++ "] " ++ trouble.text ++ ": " ++ Text.quoted path.text
  | nullCharacter => "embedded null byte"

/-- Whether there is nothing where something was looked for. -/
def isMissing : DiskFault → Bool
  | blocked .missing _ => true
  | _ => false

end DiskFault

namespace Location

/-- The location that a path starts from. -/
def ofAnchor : Anchor → Location
  | .relative => #[]
  | .root | .doubleRoot => #["/"]

/-- One part further; a double dot leads to the directory above, and nothing lies above the root. -/
def go (l : Location) (part : String) : Location :=
  if part ≠ ".." then l.push part
  else if l = #["/"] then l
  else l.pop

end Location

namespace Disk

def maxPartBytes : Nat := 255

def maxPathBytes : Nat := 4095

variable (d : Disk)

/-- What is stored at a location. The working directory and the root are always there. -/
def entry? (l : Location) : Option Entry :=
  if l = #[] ∨ l = #["/"] then some .directory
  else (d.entries.find? fun e => e.1 = l).map Prod.snd

/-- Go on from a location along some parts; every part has to be looked up in a directory. -/
def walk (here : Location) : List String → Except Trouble Location
  | [] => .ok here
  | part :: parts =>
    match d.entry? here with
    | none => .error .missing
    | some (.file _) => .error .notDirectory
    | some .directory =>
      if maxPartBytes < part.utf8ByteSize then .error .nameTooLong
      else walk (here.go part) parts

/-- The location that a path names; there need not be anything at it. -/
def resolve (p : Path) : Except DiskFault Location :=
  if p.text.contains '\x00' then .error .nullCharacter
  else if maxPathBytes < p.text.utf8ByteSize then .error (.blocked .nameTooLong p)
  else (d.walk (.ofAnchor p.anchor) p.parts).mapError (.blocked · p)

def find? (p : Path) : Option Entry :=
  match d.resolve p with
  | .ok l => d.entry? l
  | .error _ => none

/-- Whether a path leads to anything. Only a path that is too long cannot be asked about. -/
def contains (p : Path) : Except DiskFault Bool :=
  match d.resolve p with
  | .ok l => .ok (d.entry? l).isSome
  | .error (.blocked .nameTooLong path) => .error (.blocked .nameTooLong path)
  | .error _ => .ok false

def isDirectory (p : Path) : Bool := d.find? p == some .directory

/-- Store an entry at a location, in place of what was there. -/
def put (l : Location) (entry : Entry) : Disk :=
  { d with entries := d.entries.filter (fun e => e.1 ≠ l) ++ [(l, entry)] }

def erase (l : Location) : Disk := { d with entries := d.entries.filter fun e => e.1 ≠ l }

/-! ## Files -/

def read (p : Path) : Except DiskFault (List UInt8) := do
  match d.entry? (← d.resolve p) with
  | none => .error (.blocked .missing p)
  | some .directory => .error (.blocked .isDirectory p)
  | some (.file bytes) => return bytes

def write (p : Path) (bytes : List UInt8) : Except DiskFault Disk := do
  let l ← d.resolve p
  if d.entry? l = some .directory then .error (.blocked .isDirectory p) else return d.put l (.file bytes)

def writeText (p : Path) (text : String) : Except DiskFault Disk := d.write p (Utf8.encode text)

def remove (p : Path) : Except DiskFault Disk := do
  let l ← d.resolve p
  match d.entry? l with
  | none => .error (.blocked .missing p)
  | some .directory => .error (.blocked .isDirectory p)
  | some (.file _) => return d.erase l

end Disk

/-! ## Directories -/

/-- What becomes of making directories: those made before a fault remain. -/
structure DirsMade where
  disk : Disk
  fault : Option DiskFault := none

/-- The disk with all directories made, or why it is not so. -/
def DirsMade.toExcept (made : DirsMade) : Except DiskFault Disk :=
  match made.fault with
  | none => .ok made.disk
  | some fault => .error fault

namespace Disk

variable (d : Disk)

def makeDir (p : Path) : Except DiskFault Disk := do
  let l ← d.resolve p
  if (d.entry? l).isSome then .error (.blocked .present p) else return d.put l .directory

/-- Go on from a directory along some parts, and make every directory that is missing. The path walked
so far leads to that directory. -/
def makeDirsFrom (d : Disk) (walked : Path) (here : Location) : List String → DirsMade
  | [] => { disk := d }
  | part :: parts =>
    let walked := { walked with parts := walked.parts ++ [part] }
    if maxPartBytes < part.utf8ByteSize then
      { disk := d, fault := some (.blocked .nameTooLong walked) }
    else
      match d.entry? (here.go part) with
      | some .directory => d.makeDirsFrom walked (here.go part) parts
      | some (.file _) => { disk := d, fault := some (.blocked .present walked) }
      | none => (d.put (here.go part) .directory).makeDirsFrom walked (here.go part) parts

/-- Make a directory, unless it is there already, and if one that leads to it is missing, all that are
missing. -/
def makeDirs (p : Path) : DirsMade :=
  match d.makeDir p with
  | .ok d => { disk := d }
  | .error fault =>
    if fault.isMissing then d.makeDirsFrom { p with parts := [] } (.ofAnchor p.anchor) p.parts
    else { disk := d, fault := if d.isDirectory p then none else some fault }

end Disk

/-! ## Documents -/

/-- The kinds of faults that whoever asks for a document tells apart. -/
inductive FaultKind where
  /-- Nothing is where the document is looked for. -/
  | missing
  /-- Something else on the disk is in the way. -/
  | system
  /-- The text is no document. -/
  | malformed
  /-- Nothing can be made of the path, the bytes or a number. -/
  | value
  /-- The document nests too deep. -/
  | depth
deriving DecidableEq

namespace FaultKind

/-- Whether the fault is one of the disk. -/
def isSystem : FaultKind → Bool
  | missing | system => true
  | malformed | value | depth => false

/-- Whether the fault is one of what was found; a malformed text is one kind of it. -/
def isValue : FaultKind → Bool
  | malformed | value => true
  | missing | system | depth => false

end FaultKind

/-- Why a file holds no document. -/
inductive DocumentFault where
  | disk (fault : DiskFault)
  | undecodable (fault : Utf8.Fault)
  | unreadable (text : List Char) (fault : Json.Fault)
deriving DecidableEq

def DocumentFault.message : DocumentFault → String
  | disk fault => fault.message
  | undecodable fault => fault.message
  | unreadable text fault => fault.message text

def DocumentFault.kind : DocumentFault → FaultKind
  | disk (.blocked .missing _) => .missing
  | disk (.blocked _ _) => .system
  | disk .nullCharacter | undecodable _ | unreadable _ (.tooManyDigits _) => .value
  | unreadable _ (.malformed _ _) => .malformed
  | unreadable _ (.tooDeep _) => .depth

/-- The document in the bytes of a file, in which all line endings count alike. -/
def Json.ofBytes (nesting : Nat) (bytes : List UInt8) : Except DocumentFault Json :=
  match Utf8.decode bytes with
  | .error fault => .error (.undecodable fault)
  | .ok cs =>
    let text := Text.normalizeLineEndings cs
    (Json.read nesting text).mapError (.unreadable text)

namespace Disk

variable (d : Disk)

def readDocument (p : Path) : Except DocumentFault Json := do
  let bytes ← (d.read p).mapError .disk
  Json.ofBytes d.nesting bytes

/-- Write a document to a file in an existing directory. -/
def writeDocument (p : Path) (document : Json) : Except DiskFault Disk := d.writeText p document.page

end Disk
end BranchingStory
