import BranchingStory.Play.Block
import BranchingStory.Text.Wrap

/-!
# What the console shows

Blocks, choices and headings as lines of text. A character's line stands indented under the name of
its speaker; other blocks are paragraphs with an empty line between them.
-/

namespace BranchingStory
namespace Screen

def defaultWidth : Int := 72

def showsIds (debug : Option String) : Bool := debug == some "1"

def indent : String := "  "

def paragraphLines (width : Int) : List String → List String
  | [] => []
  | [paragraph] => Text.wrap width "" paragraph
  | paragraph :: rest => Text.wrap width "" paragraph ++ "" :: paragraphLines width rest

def speakerName (identity : Option Identity) : String := identity.elim unknownName Identity.name

/-- The line that names a block, if ids are shown and it has one. -/
def idLines (showIds : Bool) (b : Block) : List String :=
  match nonEmpty? b.id with
  | some id => if showIds then ["[" ++ id ++ "]"] else []
  | none => []

def blockLines (showIds : Bool) (width : Int) (b : Block) (identity : Option Identity) : List String :=
  idLines showIds b ++
    if b.kind = .characterDialogue then
      (speakerName identity ++ ":") :: b.text.toList.flatMap (Text.wrap width indent)
    else paragraphLines width b.text.toList

def printed (line : String) : String := line ++ "\n"

def printedAll (lines : List String) : String := String.join (lines.map printed)

def heading (title : String) : String := printed ("\n=== " ++ title ++ " ===")

/-- Blocks, each given by its lines, with an empty line between them; a pause takes the place of the
empty line. -/
def blocksText (pausing : Bool) : List (List String) → String
  | [] => ""
  | [lines] => printedAll lines
  | lines :: rest => printedAll lines ++ (if pausing then "" else printed "") ++ blocksText pausing rest

/-- How often showing some blocks pauses when it pauses between them. -/
def pauseCount (blocks : Nat) : Nat := blocks - 1

def choiceLines (index : Nat) : List Choice → List String
  | [] => []
  | choice :: choices => (toString index ++ ". " ++ choice.text) :: choiceLines (index + 1) choices

/-- The numbered choices under their heading; nothing if there are none. -/
def choicesText (choices : List Choice) : String :=
  if choices.isEmpty then "" else heading "Choices" ++ printedAll (choiceLines 1 choices)

end Screen
end BranchingStory
