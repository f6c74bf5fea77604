import BranchingStory.Console.Options
import BranchingStory.Places
import BranchingStory.Text.Numeral
import BranchingStory.Text.Wrap

/-!
# Help

How the program is called, and what its options are for, laid out for the columns of the screen. The
ways of giving an option are never broken; the texts beside them wrap in a column of their own, which
moves to the left as the screen gets narrow.
-/

namespace BranchingStory

namespace OptionName

def all : List OptionName := [storyDir, saveDir, logLevel]

def placeholder : OptionName → String
  | storyDir => "STORY_DIR"
  | saveDir => "SAVE_DIR"
  | logLevel => "LOG_LEVEL"

def form (name : OptionName) : String := name.text ++ " " ++ name.placeholder

def purpose : OptionName → String
  | storyDir => "Directory holding story.json and friends."
  | saveDir => "Directory for the quick-save slot."
  | logLevel => "DEBUG, INFO, WARNING or ERROR."

end OptionName

namespace Environment

def defaultColumns : Nat := 80

/-- The columns of the screen: what the surroundings say, if that is a positive number. -/
def screenColumns (env : Environment) : Nat :=
  (env.columns.bind fun text => Numeral.positive? text.toList).getD defaultColumns

end Environment

namespace Help

def program : String := "paperbacks"

def description : String := "Play a Paperbacks story in the terminal."

/-- Two columns at the right stay free. -/
def widthOf (columns : Nat) : Nat := columns - 2

def minTextWidth : Nat := 11

def spaces (n : Nat) : String := String.ofList (List.replicate n ' ')

/-! ## Usage -/

def usageLabel : String := "usage: "

/-- The options as they may follow the program's name. -/
def usageParts : List String := "[-h]" :: OptionName.all.map fun name => "[" ++ name.form ++ "]"

/-- The parts that fit behind `used` columns of a line, each behind a blank, and the others. -/
def fill (width used : Nat) : List String → List String × List String
  | [] => ([], [])
  | part :: parts =>
    if used + 1 + part.length ≤ width then
      let filled := fill width (used + 1 + part.length) parts
      (part :: filled.1, filled.2)
    else ([], part :: parts)

theorem length_fill_le (width used : Nat) (parts : List String) :
    (fill width used parts).2.length ≤ parts.length := by
  induction parts generalizing used with
  | nil => simp [fill]
  | cons part parts ih =>
    unfold fill
    split
    · have := ih (used + 1 + part.length)
      simp only [List.length_cons]
      omega
    · simp

/-- Lines filled with parts behind an indent. The first part of a line stands on it however long it is. -/
def partLines (width indent : Nat) : List String → List String
  | [] => []
  | part :: parts =>
    let filled := fill width (indent + part.length) parts
    (spaces indent ++ " ".intercalate (part :: filled.1)) :: partLines width indent filled.2
termination_by parts => parts.length
decreasing_by
  exact Nat.lt_succ_of_le (length_fill_le width (indent + part.length) parts)

/-- How the program is called: on one line if that fits. Else the options are lined up behind the
program's name, or below it if the name takes up more than three quarters of the width. -/
def usage (width : Nat) : List String :=
  let named := usageLabel ++ program
  let line := " ".intercalate (named :: usageParts)
  if line.length ≤ width then [line]
  else if 4 * named.length ≤ 3 * width then
    let indent := named.length + 1
    let filled := fill width named.length usageParts
    " ".intercalate (named :: filled.1) :: partLines width indent filled.2
  else named :: partLines width usageLabel.length usageParts

/-! ## Options -/

/-- The pieces of a word, which may be broken behind each hyphen. -/
def pieces : List Char → List (List Char)
  | [] => []
  | c :: rest =>
    match pieces rest with
    | [] => [[c]]
    | piece :: more => if c = '-' then [c] :: piece :: more else (c :: piece) :: more

theorem flatten_pieces (word : List Char) : (pieces word).flatten = word := by
  induction word with
  | nil => rfl
  | cons c rest ih =>
    unfold pieces
    split
    · rename_i h
      simp_all
    · rename_i piece more h
      rw [← ih, h]
      by_cases hc : c = '-' <;> simp [hc]

def textLines (width : Nat) (text : String) : List String :=
  (Text.layout (max width minTextWidth) true ((Text.chunks text.toList).flatMap pieces)).map
    String.ofList

/-- The columns before the texts: on a narrow screen the texts keep twenty, as long as four are left before
them. -/
def textColumn (width : Nat) : Nat := min 24 (max (width - 20) 4)

/-- How an option is given, and the text for it: beside it if there is room, else below. -/
def entryLines (width : Nat) (form text : String) : List String :=
  let column := textColumn width
  let start := "  " ++ form
  let lines := textLines (width - column) text
  let below := lines.map (spaces column ++ ·)
  match lines with
  | [] => [start]
  | line :: _ =>
    if start.length + 2 ≤ column then
      (start ++ spaces (column - start.length) ++ line) :: below.drop 1
    else start :: below

def lines (width : Nat) : List String :=
  usage width ++ [""] ++ textLines width description ++ ["", "options:"] ++
    entryLines width "-h, --help" "show this help message and exit" ++
    OptionName.all.flatMap fun name => entryLines width name.form name.purpose

end Help

/-- What is printed on a screen of some columns when the program stops, on the output for help and on the
error output otherwise. -/
def OptionsStop.lines (columns : Nat) : OptionsStop → List String
  | help => Help.lines (Help.widthOf columns)
  | stop => Help.usage (Help.widthOf columns) ++ [Help.program ++ ": error: " ++ stop.message]

end BranchingStory
