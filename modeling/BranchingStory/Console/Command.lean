import BranchingStory.Text.Blank
import BranchingStory.Text.Digit

/-!
# Commands

What a line means that the player enters. Blanks around it do not count, nor does the case of its
letters. A line of digits is only a command while a choice is pending.
-/

namespace BranchingStory

inductive Command where
  | quit
  | save
  | load
  | newGame
  | history
  /-- Answer the pending choice. -/
  | answer (digits : List Char)
  /-- Begin the story or go on with it. -/
  | goOn
  | unknown
deriving DecidableEq

namespace Command

def significant (line : String) : List Char := (Text.trim line.toList).map Char.toLower

def ofSignificant (waiting : Bool) : List Char → Command
  | ['q'] => quit
  | ['s'] => save
  | ['l'] => load
  | ['n'] => newGame
  | ['h'] => history
  | [] => goOn
  | text => if waiting && text.all Text.isDigit then answer text else unknown

def ofLine (waiting : Bool) (line : String) : Command := ofSignificant waiting (significant line)

end Command
end BranchingStory
