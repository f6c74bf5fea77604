import BranchingStory.Calendar
import BranchingStory.Console.Help
import BranchingStory.Console.Program
import BranchingStory.Library.Bundled
import Std.Time.DateTime

/-!
# Command line

The outer layer: it copies the files that a run needs from the computer's disk, passes on what the
console puts out, and writes the save back when it has changed.
-/

namespace BranchingStory
namespace CommandLine

/-- Where the documents that come with the program are kept. -/
def bundledDirectory : Path := .ofText "data/definitions"

def environment : IO Environment := do
  return {
    home := (← IO.getEnv "HOME").getD ""
    storyDir := ← IO.getEnv "PAPERBACKS_STORY_DIR"
    appData := ← IO.getEnv "APPDATA"
    windows := (← IO.getEnv "OS") == some "Windows_NT"
    debug := ← IO.getEnv "PAPERBACKS_DEBUG"
    columns := ← IO.getEnv "COLUMNS"
    bundled := bundledDirectory }

/-- The bytes of a file of the computer's disk, if there is one. -/
def bytes? (p : Path) : IO (Option (List UInt8)) := do
  try
    return some (← IO.FS.readBinFile p.text).toList
  catch _ => return none

def hasDirectory (p : Path) : IO Bool := do
  try
    let _ ← IO.FS.realPath p.text
    return (← bytes? p).isNone
  catch _ => return false

/-- Copy what lies at a path, and what leads to it. -/
def imported (d : Disk) (p : Path) : IO Disk := do
  let mut d := d
  for n in List.range (p.parts.length + 1) do
    let here : Path := { p with parts := p.parts.take n }
    match ← bytes? here with
    | some bytes => d := (d.write here bytes).toOption.getD d
    | none => if ← hasDirectory here then d := (d.makeDirs here).disk
  return d

/-- A disk with everything that a run reads, as far as it can be told where that lies. -/
def prepared (env : Environment) (options : Options) : IO Disk := do
  let mut d := (Bundled.install bundledDirectory {}).toOption.getD {}
  if let .ok chosen := options.storyDir.mapM Program.directory then
    for (name, _) in Bundled.documents do
      d ← imported d ((env.definitions chosen).file name)
  if let .ok settings := env.settings then
    d ← imported d settings
  if let .ok slot := Program.slot env options.saveDir then
    d ← imported d slot.path
  return d

def now : IO String := do
  let t ← Std.Time.Timestamp.now
  return Moment.text ⟨t.toNanosecondsSinceUnixEpoch.val / 1000⟩

/-- Pass on what is put out: texts to the output, and notices from a level on to the error output. -/
def putOut (threshold : Level) (outputs : List Output) : IO Unit := do
  let out ← IO.getStdout
  for output in outputs do
    match output with
    | .text s => out.putStr s
    | .notice n => if n.level.reaches threshold then IO.eprintln n.line
  out.flush

/-- Write the save to the computer's disk if it is another one than before. -/
def exported (slot : Slot) (old new : Disk) : IO Unit := do
  match new.find? slot.path with
  | some (.file bytes) =>
    if old.find? slot.path ≠ some (.file bytes) then
      IO.FS.createDirAll slot.directory.text
      IO.FS.writeBinFile slot.path.text ⟨bytes.toArray⟩
  | _ => return

def exitCode : Ending → IO UInt32
  | .quit => return 0
  | .inputEnded => do
    IO.eprintln inputEndedMessage
    return 1
  | .crashed fault => do
    IO.eprintln fault.message
    return 1

/-- Answer lines until the loop ends; the result is the exit code. -/
partial def converse (threshold : Level) (c : Console) : IO UInt32 := do
  let asked := (c.keep [c.prompt]).on .utf8
  putOut threshold asked.outputs
  if let some ending := asked.ending then
    return ← exitCode ending
  let line ← (← IO.getStdin).getLine
  if line.isEmpty then
    return ← exitCode .inputEnded
  let reply := (c.feed ⟨line, ← now⟩).on .utf8
  exported c.slot c.disk reply.console.disk
  putOut threshold reply.outputs
  match reply.ending with
  | none => converse threshold reply.console
  | some ending => exitCode ending

def run (env : Environment) (options : Options) : IO UInt32 := do
  let opening := Program.start env options (← prepared env options)
  putOut opening.threshold opening.outputs
  match opening.result with
  | .ok console => converse opening.threshold console
  | .error fault =>
    IO.eprintln fault.message
    return 1

end CommandLine
end BranchingStory

open BranchingStory in
def main (args : List String) : IO UInt32 := do
  let env ← CommandLine.environment
  match Options.ofArguments args with
  | .ok options => CommandLine.run env options
  | .error stop =>
    let text := Screen.printedAll (stop.lines env.screenColumns)
    if stop = .help then IO.print text else IO.eprint text
    return stop.exitCode.toUInt32
