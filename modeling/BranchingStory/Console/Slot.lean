import BranchingStory.Disk.Basic
import BranchingStory.Notice

/-!
# The quick-save slot

A single file that a save overwrites. A slot remembers what it has written last and does not write it
again; the time of a save does not make it another one.
-/

namespace BranchingStory

structure Slot where
  directory : Path
  fileName : String := "quick_save.json"
  /-- The text of the last save written here, without its time. -/
  lastWritten : Option String := none

/-- What becomes of writing a save. -/
structure SlotWrite where
  slot : Slot
  disk : Disk
  notices : List Notice := []
  /-- Whether the file was written; it is left alone if the save is the last one again. -/
  result : Except DiskFault Bool

namespace Slot

variable (s : Slot)

def path : Path := s.directory.file s.fileName

def timeKey : String := "timestamp"

/-- What makes two saves the same: their text without the time. -/
def identityText (save : Assoc Json) : String := (Json.object (Assoc.erase save timeKey)).line

def holds (d : Disk) : Except DiskFault Bool := d.contains s.path

/-- The stored document; nothing if there is no file. -/
def read (d : Disk) : Except DocumentFault (Option Json) :=
  match d.readDocument s.path with
  | .ok document => .ok (some document)
  | .error (.disk fault) => if fault.isMissing then .ok none else .error (.disk fault)
  | .error fault => .error fault

/-- Write a save, unless it is the one written last. The directory is made if need be. -/
def write (save : Assoc Json) (d : Disk) : SlotWrite :=
  let text := identityText save
  if s.lastWritten = some text then
    { slot := s, disk := d, notices := [.saveUnchanged], result := .ok false }
  else
    let made := d.makeDirs s.directory
    match made.fault with
    | some fault => { slot := s, disk := made.disk, result := .error fault }
    | none =>
      match made.disk.writeDocument s.path (.object save) with
      | .error fault => { slot := s, disk := made.disk, result := .error fault }
      | .ok written =>
        { slot := { s with lastWritten := some text }
          disk := written
          notices := [.saveWritten s.path.text]
          result := .ok true }

end Slot
end BranchingStory
