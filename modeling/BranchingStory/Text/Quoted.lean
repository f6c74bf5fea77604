import BranchingStory.Text.Half
import BranchingStory.Text.Hex
import BranchingStory.Text.Printable

/-!
# Quoted text in messages

Messages show a text between quotes, on one line and with every unprintable character escaped.
Single quotes are preferred; a text that holds a single quote and no double quote gets double ones.
-/

namespace BranchingStory
namespace Text

/-- The quote character that a text is shown between. -/
def quoteFor (cs : List Char) : Char :=
  if cs.contains '\'' && !cs.contains '"' then '"' else '\''

def quoteChar (quote c : Char) : List Char :=
  if c = quote ∨ c = '\\' then ['\\', c]
  else if c = '\n' then ['\\', 'n']
  else if c = '\r' then ['\\', 'r']
  else if c = '\t' then ['\\', 't']
  else if isPrintable c then [c]
  else if c.toNat ≤ 0xff then '\\' :: 'x' :: hex 2 c.toNat
  else if c.toNat ≤ 0xffff then '\\' :: 'u' :: hex 4 c.toNat
  else if let some unit := half? c then '\\' :: 'u' :: hex 4 unit
  else '\\' :: 'U' :: hex 8 c.toNat

def quoteChars (cs : List Char) : List Char :=
  let quote := quoteFor cs
  quote :: (cs.flatMap (quoteChar quote) ++ [quote])

def quoted (s : String) : String :=
  String.ofList (quoteChars s.toList)

end Text
end BranchingStory
