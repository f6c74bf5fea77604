import BranchingStory.Disk.Path
import BranchingStory.Story.Node

/-!
# Places

Where things lie: the authored documents of a story, and the settings and saves of the player. The
surroundings decide, and an explicit choice wins over them. They may also leave a place undecided.
-/

namespace BranchingStory

/-- What the surroundings of a run say. -/
structure Environment where
  /-- The directory of the player. -/
  home : String
  /-- Where the authored documents lie, if the surroundings choose. -/
  storyDir : Option String := none
  /-- Where the data of applications lie; only asked for on a system that keeps them there. -/
  appData : Option String := none
  /-- Whether the system keeps the data of applications in a place of their own. -/
  windows : Bool := false
  /-- The switch for showing more than a player needs. -/
  debug : Option String := none
  /-- How many columns the screen has, as the surroundings say it. -/
  columns : Option String := none
  /-- Where the authored documents that come with the program lie. -/
  bundled : Path

/-- Why it cannot be told where something lies. -/
inductive PlaceFault where
  /-- The surroundings name the directory of the player by its short sign only. -/
  | noHome
  /-- A directory was chosen by something that is no text. -/
  | notText
deriving DecidableEq

def PlaceFault.message : PlaceFault → String
  | noHome => "Could not determine home directory."
  | notText => "expected str, bytes or os.PathLike object, not list"

namespace Environment

variable (env : Environment)

/-- The directory of the player; slashes at its end do not count, and what is then empty is the root.
A tilde, the sign for this very directory, cannot begin it. -/
def homePath : Except PlaceFault Path :=
  match (env.home.toList.reverse.dropWhile (· = '/')).reverse with
  | [] => .ok (.ofText "/")
  | '~' :: _ => .error .noHome
  | chars => .ok (.ofText (String.ofList chars))

/-- Where the authored documents lie: as asked for, else as the surroundings say, else those that come
with the program. -/
def definitions (chosen : Option Path) : Path :=
  match chosen with
  | some path => path
  | none =>
    match nonEmpty? env.storyDir with
    | some text => .ofText text
    | none => env.bundled

/-- Where settings and saves of the player lie. -/
def playerData : Except PlaceFault Path := do
  if env.windows then
    match nonEmpty? env.appData with
    | some text => return (Path.ofText text).file "Paperbacks"
    | none => return (← env.homePath).file "Paperbacks"
  else return (← env.homePath).file ".config/paperbacks"

def settings : Except PlaceFault Path := do return (← env.playerData).file "config.json"

def saves : Except PlaceFault Path := do return (← env.playerData).file "saves"

def debugging : Bool := env.debug == some "1"

end Environment
end BranchingStory
