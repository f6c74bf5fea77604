import BranchingStory.Console.Command
import BranchingStory.Console.Screen
import BranchingStory.Console.Session

/-!
# The console loop

A console waits for a line, either for a command or, while blocks are revealed one by one, for the
next of them to be asked for. A line leads to a reply: what is put out, how the console stands
afterwards, and whether the loop ends with it. A text that cannot be written in the character set of the
screen ends the loop as well.
-/

namespace BranchingStory

inductive Output where
  | text (s : String)
  | notice (n : Notice)

/-- A line that the player enters, and the time at which it is entered. -/
structure Typed where
  line : String
  time : String

structure Console where
  session : Session
  slot : Slot
  disk : Disk
  /-- Whether new blocks are revealed one by one. -/
  stepwise : Bool := false
  showsIds : Bool := false
  /-- The new blocks that are still to be revealed. -/
  hidden : List Block := []

/-- How a loop ends. -/
inductive Ending where
  | quit
  | inputEnded
  | crashed (fault : SessionFault)

/-- What a line leads to. -/
structure Reply where
  console : Console
  outputs : List Output := []
  ending : Option Ending := none

def inputEndedMessage : String := "EOF when reading a line"

namespace Output

/-- Why a text cannot be written. Notices are told elsewhere, and can always be. -/
def fault? (screen : Charset) : Output → Option Charset.Fault
  | text s => screen.fault? s.toList
  | notice _ => none

def written (screen : Charset) : Output → Output
  | text s => .text (String.ofList (screen.written s.toList))
  | notice n => .notice n

end Output

/-- The reply on a screen: it is put out up to the first line that cannot be written, and there the loop
ends. -/
def Reply.on (screen : Charset) (reply : Reply) : Reply :=
  match reply.outputs.findSome? (Output.fault? screen) with
  | none => reply
  | some fault =>
    let before := reply.outputs.takeWhile fun output => (output.fault? screen).isNone
    { reply with
      outputs := before ++ ((reply.outputs.drop before.length).take 1).map (Output.written screen)
      ending := some (.crashed (.screen fault)) }

namespace Event

/-- How the surroundings of a console hear of an event; sound cues are only told of. -/
def output : Event → Output
  | notice n => .notice n
  | ambience cue => .notice (.ambienceStarted cue)
  | sound cue => .notice (.soundPlayed cue)
  | begun => .text (Screen.printed "\n~ The story begins ~\n")

end Event

namespace Console

variable (c : Console)

def play : Play := c.session.play

def withPlay (play : Play) : Console := { c with session := { c.session with play } }

def say (line : String) : Output := .text (Screen.printed line)

/-! ## Blocks -/

/-- A block as it is shown, and the notices of finding out who speaks. -/
def shownBlock (b : Block) : Told (List String) :=
  Screen.blockLines c.showsIds Screen.defaultWidth b <$> c.play.identityOf b

def shownBlocks : List Block → Told (List (List String))
  | [] => pure []
  | b :: bs => do
    let lines ← c.shownBlock b
    return lines :: (← shownBlocks bs)

def blockOutputs (blocks : List Block) : List Output :=
  let shown := c.shownBlocks blocks
  shown.notices.map .notice ++ [.text (Screen.blocksText false shown.value)]

/-- The blocks of the history after a turn that were not in it before. It is by their numbers that entries
are known. -/
def freshBlocks (before : List Block) (turn : Turn) : List Block :=
  ((turn.entries before).filter fun entry =>
    !before.zipIdx.any fun old => entry.2 == old.2).map Prod.fst

/-- Show new blocks after an empty line: all of them, or the first one and the others when they are
asked for. -/
def reveal (c : Console) : List Block → Reply
  | [] => { console := c }
  | b :: bs =>
    if c.stepwise then
      { console := { c with hidden := bs }, outputs := say "" :: c.blockOutputs [b] }
    else { console := c, outputs := say "" :: c.blockOutputs (b :: bs) }

/-! ## Prompts -/

/-- What stands before a command is asked for: the pending choices, or that the story has ended. -/
def situation : String :=
  if c.play.history.waiting then Screen.choicesText c.play.pendingChoices
  else if c.play.history.isEnded then Screen.printed "\n-- The End --"
  else ""

def prompt : Output :=
  if c.hidden.isEmpty then .text (c.situation ++ "> ") else .text "  ..."

/-! ## Replies to commands -/

def keep (outputs : List Output) : Reply := { console := c, outputs }

def crash (fault : SessionFault) (outputs : List Output) : Reply :=
  { console := c, outputs, ending := some (.crashed fault) }

/-- Save to the slot. Time alone does not make a save worth writing. A trouble on the disk is told; a path
that no disk can have stops the program. -/
def save (time : String) : Reply :=
  let write := c.slot.write (c.session.save time) c.disk
  let saved : Console := { c with slot := write.slot, disk := write.disk }
  let notices := write.notices.map Output.notice
  match write.result with
  | .ok _ => saved.keep (notices ++ [say "Saved."])
  | .error .nullCharacter => saved.crash (.disk .nullCharacter) notices
  | .error fault => saved.keep (notices ++ [.notice (.saveFailed fault.message), say "Save failed."])

/-- Load from the slot and show what is in the history then. -/
def load : Reply :=
  let load := c.session.quickLoad c.slot c.disk
  let loaded : Console := { c with session := load.session }
  let told := load.events.map Event.output
  match load.result with
  | .ok true =>
    loaded.keep (told ++ .text (Screen.heading "Loaded") :: loaded.blockOutputs loaded.play.history.blocks)
  | .ok false => loaded.keep (told ++ [say "Load failed."])
  | .error fault => loaded.crash fault told

def newGame : Reply :=
  let turn := c.session.newGame
  { c with session := turn.session }.keep
    (turn.events.map Event.output ++ [say "Started a new story."])

def showHistory : Reply :=
  c.keep (.text (Screen.heading "History") :: c.blockOutputs c.play.history.blocks)

def rangeText : String :=
  "Please enter a value between 1 and " ++ toString c.play.pendingChoices.length ++ "."

def take (turn : Turn) : Reply :=
  let told := turn.events.map Event.output
  match turn.fault with
  | none =>
    let reply := (c.withPlay turn.play).reveal (freshBlocks c.play.history.blocks turn)
    { reply with outputs := told ++ reply.outputs }
  | some (.noSuchChoice _ _) => c.keep (told ++ [say c.rangeText])
  | some fault => (c.withPlay turn.play).crash (.play fault) told

/-- Answer the pending choice by its number. -/
def answer (digits : List Char) : Reply :=
  match Numeral.read digits with
  | .ok n => c.take (c.play.chooseIndex ((n : Int) - 1))
  | .error fault => c.crash (.numeral fault) []

def goOn : Reply := c.take c.play.begin

def execute (time : String) : Command → Reply
  | .quit => { console := c, outputs := [say "Goodbye!"], ending := some .quit }
  | .save => c.save time
  | .load => c.load
  | .newGame => c.newGame
  | .history => c.showHistory
  | .answer digits => c.answer digits
  | .goOn => c.goOn
  | .unknown => c.keep [say "Unknown command."]

/-- The reply to a line. While blocks are hidden, any line asks for the next one. -/
def feed (typed : Typed) : Reply :=
  match c.hidden with
  | b :: bs => { c with hidden := bs }.keep (c.blockOutputs [b])
  | [] => c.execute typed.time (.ofLine c.play.history.waiting typed.line)

/-! ## Runs -/

/-- Read lines until the loop ends, or until there are no more of them. -/
def run (screen : Charset) (c : Console) : List Typed → Reply
  | [] => Reply.on screen { console := c, outputs := [c.prompt], ending := some .inputEnded }
  | typed :: rest =>
    let asked := (c.keep [c.prompt]).on screen
    match asked.ending with
    | some _ => asked
    | none =>
      let reply := (c.feed typed).on screen
      match reply.ending with
      | some _ => { reply with outputs := c.prompt :: reply.outputs }
      | none =>
        let later := reply.console.run screen rest
        { later with outputs := c.prompt :: reply.outputs ++ later.outputs }

end Console
end BranchingStory
