import BranchingStory.Console.Loop
import BranchingStory.Console.Options
import BranchingStory.Console.Settings

/-!
# The program

From the command line and the surroundings to a console that waits for its first line.
-/

namespace BranchingStory

/-- What starting the program leads to: from which level on notices are told, what is put out, and the
console unless the story cannot be played. -/
structure Opening where
  threshold : Level
  outputs : List Output := []
  result : Except SessionFault Console

namespace Program

def title : String := "=== Paperbacks ==="

def commands : String :=
  "Enter: continue | number: choose | s: save | l: load | n: new game | h: history | q: quit"

def directory : OptionValue → Except PlaceFault Path
  | .text text => .ok (.ofText text)
  | .nothing => .error .notText

/-- The slot in a directory; without one, in the place for saves of the player. -/
def slot (env : Environment) (chosen : Option OptionValue) : Except PlaceFault Slot :=
  match chosen with
  | some value => do return { directory := ← directory value }
  | none => do return { directory := ← env.saves }

def session (env : Environment) (chosen : Option OptionValue) (d : Disk) : Attempt SessionFault Session := do
  let directory ← Attempt.ofExcept ((chosen.mapM directory).mapError .place)
  Session.build (env.definitions directory) d

def greeting : List Output := [Console.say title, Console.say commands]

/-- What tells the player of a save that can be loaded. -/
def saveHint : Output := Console.say "A quick save is available (l to load)."

/-- Greet the player of a session and start its ambience. -/
def welcome (session : Session) (slot : Slot) (d : Disk) (stepwise showsIds : Bool) :
    List Output × Except SessionFault Console :=
  match slot.holds d with
  | .error fault => (greeting, .error (.disk fault))
  | .ok held =>
    let started := session.startAmbience
    (greeting ++ (if held then [saveHint] else []) ++ started.events.map Event.output,
      .ok { session := started.session, slot, disk := d, stepwise, showsIds })

def startWith (settings : Settings) (env : Environment) (options : Options) (d : Disk) : Opening :=
  let threshold := settings.threshold (options.logLevel.bind OptionValue.text?) env.debugging
  let built := session env options.storyDir d
  let told := built.notices.map Output.notice
  match built.result, slot env options.saveDir with
  | .error fault, _ => { threshold, outputs := told, result := .error fault }
  | .ok _, .error fault => { threshold, outputs := told, result := .error (.place fault) }
  | .ok session, .ok slot =>
    let welcomed := welcome session slot d (settings.textMode = .step) env.debugging
    { threshold, outputs := told ++ welcomed.1, result := welcomed.2 }

/-- Start the program. Settings whose place cannot be told, or that nest too deep, stop it before
anything else. -/
def start (env : Environment) (options : Options) (d : Disk) : Opening :=
  match env.settings with
  | .error fault => { threshold := .warning, result := .error (.place fault) }
  | .ok path =>
    match Settings.load path d with
    | .error fault => { threshold := .warning, result := .error (.document fault) }
    | .ok settings => startWith settings env options d

end Program

namespace Output

def printed (outputs : List Output) : String :=
  String.join (outputs.filterMap fun
    | text s => some s
    | notice _ => none)

def logged (threshold : Level) (outputs : List Output) : List String :=
  outputs.filterMap fun
    | text _ => none
    | notice n => if n.level.reaches threshold then some n.line else none

end Output
end BranchingStory
