import BranchingStory.Json.Basic
import BranchingStory.Number.Decimal
import BranchingStory.Text.Half
import BranchingStory.Text.Hex
import BranchingStory.Text.Quoted

/-!
# JSON values as text

Saved files are indented by two blanks, have the members of every object sorted by name, and hold
only ASCII characters. `Json.line` is the same text on one line. `Json.shown` is how a message shows
a value.
-/

namespace BranchingStory
namespace Json

/-- Numbers without digits, as saved files spell them. -/
def fileNames : Double.SpecialNames := ⟨"NaN", "Infinity"⟩

/-- Numbers without digits, as messages spell them. -/
def shownNames : Double.SpecialNames := ⟨"nan", "inf"⟩

private def unitEscape (n : Nat) : List Char := '\\' :: 'u' :: Text.hex 4 n

/-- One character of a saved string: printable ASCII as itself, everything else as an escape; a
character beyond the sixteen-bit range takes two, unless it stands for a half. -/
def escapeChar (c : Char) : List Char :=
  if c = '"' ∨ c = '\\' then ['\\', c]
  else if c = '\n' then ['\\', 'n']
  else if c = '\r' then ['\\', 'r']
  else if c = '\t' then ['\\', 't']
  else if c.toNat = 0x08 then ['\\', 'b']
  else if c.toNat = 0x0c then ['\\', 'f']
  else if 0x20 ≤ c.toNat ∧ c.toNat < 0x7f then [c]
  else if c.toNat < 0x10000 then unitEscape c.toNat
  else if let some unit := Text.half? c then unitEscape unit
  else
    let n := c.toNat - 0x10000
    unitEscape (0xd800 + n / 0x400) ++ unitEscape (0xdc00 + n % 0x400)

def quote (s : String) : List Char := '"' :: (s.toList.flatMap escapeChar ++ ['"'])

def numberText (names : Double.SpecialNames) : Number → String
  | .int n => toString n
  | .double d => d.text names

/-- Where the items of an array or object stand. -/
inductive Layout where
  | oneLine
  | indented (depth : Nat)

namespace Layout

def deeper : Layout → Layout
  | oneLine => oneLine
  | indented depth => indented (depth + 1)

def newline : Layout → List Char
  | oneLine => []
  | indented depth => '\n' :: List.replicate (2 * depth) ' '

def separator : Layout → List Char
  | oneLine => [',', ' ']
  | indented depth => ',' :: '\n' :: List.replicate (2 * depth) ' '

end Layout

mutual
/-- The text of a value in the given layout. Object members are written in the order in which they
stand; `sortedMembers` puts them in order first. -/
def write (layout : Layout) : Json → List Char
  | .null => ['n', 'u', 'l', 'l']
  | .bool true => ['t', 'r', 'u', 'e']
  | .bool false => ['f', 'a', 'l', 's', 'e']
  | .number n => (numberText fileNames n).toList
  | .string s => quote s
  | .array [] => ['[', ']']
  | .array (item :: items) =>
    '[' :: (layout.deeper.newline ++ write layout.deeper item ++ writeItems layout.deeper items ++
      layout.newline ++ [']'])
  | .object [] => ['\x7b', '\x7d']
  | .object ((key, value) :: members) =>
    '\x7b' :: (layout.deeper.newline ++ quote key ++ ':' :: ' ' :: write layout.deeper value ++
      writeMembers layout.deeper members ++ layout.newline ++ ['\x7d'])

def writeItems (layout : Layout) : List Json → List Char
  | [] => []
  | item :: items => layout.separator ++ write layout item ++ writeItems layout items

def writeMembers (layout : Layout) : List (String × Json) → List Char
  | [] => []
  | (key, value) :: members =>
    layout.separator ++ quote key ++ ':' :: ' ' :: write layout value ++ writeMembers layout members
end

mutual
def sortedMembers : Json → Json
  | .array items => .array (sortedItems items)
  | .object members => .object (Assoc.sorted (sortedInside members))
  | v => v

def sortedItems : List Json → List Json
  | [] => []
  | item :: items => sortedMembers item :: sortedItems items

def sortedInside : List (String × Json) → List (String × Json)
  | [] => []
  | (key, value) :: members => (key, sortedMembers value) :: sortedInside members
end

/-- The text of a value over several lines, with the members of objects as they stand. -/
def indented (v : Json) : String := String.ofList (write (.indented 0) v)

def page (v : Json) : String := v.sortedMembers.indented

def line (v : Json) : String := String.ofList (write .oneLine v.sortedMembers)

mutual
/-- How a message shows a value. -/
def shownChars : Json → List Char
  | .null => "None".toList
  | .bool true => "True".toList
  | .bool false => "False".toList
  | .number n => (numberText shownNames n).toList
  | .string s => Text.quoteChars s.toList
  | .array [] => ['[', ']']
  | .array (item :: items) => '[' :: (shownChars item ++ shownItems items ++ [']'])
  | .object [] => ['\x7b', '\x7d']
  | .object ((key, value) :: members) =>
    '\x7b' :: (Text.quoteChars key.toList ++ ':' :: ' ' :: shownChars value ++ shownMembers members ++
      ['\x7d'])

def shownItems : List Json → List Char
  | [] => []
  | item :: items => ',' :: ' ' :: (shownChars item ++ shownItems items)

def shownMembers : List (String × Json) → List Char
  | [] => []
  | (key, value) :: members =>
    ',' :: ' ' :: (Text.quoteChars key.toList ++ ':' :: ' ' :: shownChars value ++ shownMembers members)
end

def shown (v : Json) : String := String.ofList v.shownChars

end Json
end BranchingStory
