import BranchingStory.Disk.Basic
import BranchingStory.Notice

/-!
# The player's settings

Two settings are kept between runs: whether a text appears at once or block by block, and how much is
told of what happens behind the scenes. Anything else in the file is ignored. A file that cannot be read
or holds no document leaves the settings at their defaults; a document that nests too deep stops whoever
asks for them.
-/

namespace BranchingStory

inductive TextMode where
  | instant
  | step
deriving DecidableEq

namespace TextMode

def name : TextMode → String
  | instant => "instant"
  | step => "step"

def ofJson : Json → TextMode
  | .string s => if s = step.name then step else instant
  | _ => instant

theorem ofJson_name (m : TextMode) : ofJson (.string m.name) = m := by
  cases m <;> decide

end TextMode

namespace Level

def all : List Level := [debug, info, warning, error]

/-- Letters as capitals; the dotless small letter counts as an I as well. -/
def capital (c : Char) : Char := if c = '\u0131' then 'I' else c.toUpper

/-- The level that a text names in letters of either case; any other text means a warning. -/
def ofText (s : String) : Level :=
  let capitals := String.ofList (s.toList.map capital)
  (all.find? fun level => level.name = capitals).getD .warning

def ofJson : Json → Level
  | .string s => ofText s
  | _ => .warning

theorem ofJson_name (l : Level) : ofJson (.string l.name) = l := by
  cases l <;> decide

end Level

structure Settings where
  textMode : TextMode := .instant
  logLevel : Level := .warning
deriving DecidableEq

namespace Settings

def textModeKey : String := "text_display_mode"

def logLevelKey : String := "log_level"

def ofJson (j : Json) : Settings :=
  { textMode := .ofJson ((j.member? textModeKey).getD .null)
    logLevel := .ofJson ((j.member? logLevelKey).getD .null) }

def toJson (s : Settings) : Json :=
  .object [(textModeKey, .string s.textMode.name), (logLevelKey, .string s.logLevel.name)]

theorem ofJson_toJson (s : Settings) : ofJson s.toJson = s := by
  obtain ⟨mode, level⟩ := s
  simp [ofJson, toJson, Json.member?, Assoc.get?, textModeKey, logLevelKey, TextMode.ofJson_name,
    Level.ofJson_name]

/-- The settings in a file. A fault of the disk or of what was found leaves the defaults. -/
def load (path : Path) (d : Disk) : Except DocumentFault Settings :=
  match d.readDocument path with
  | .ok j => .ok (ofJson j)
  | .error fault => if fault.kind.isSystem || fault.kind.isValue then .ok {} else .error fault

/-- Write the settings; the directory is made if need be. -/
def save (s : Settings) (path : Path) (d : Disk) : Except DiskFault Disk := do
  (← (d.makeDirs path.parent).toExcept).writeDocument path s.toJson

/-- The level from which on notices are told: what is asked for, else everything when debugging, else
what the settings say. -/
def threshold (s : Settings) (asked : Option String) (debugging : Bool) : Level :=
  match nonEmpty? asked with
  | some text => .ofText text
  | none => if debugging then .debug else s.logLevel

end Settings
end BranchingStory
