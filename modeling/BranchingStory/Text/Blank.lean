/-!
# Blank characters

`isWhite` is Unicode white space, and `isBlank` is that together with the four ASCII information
separators. Lines break only at the smaller set `isBreakable`, so a no-break or an ideographic space stays inside its word.
-/

namespace BranchingStory
namespace Text

/-- Tab, line feed, vertical tab, form feed, carriage return and space. -/
def isBreakable (c : Char) : Bool :=
  (0x09 ≤ c.toNat && c.toNat ≤ 0x0d) || c == ' '

/-- White space of any script. -/
def isWhite (c : Char) : Bool :=
  isBreakable c || (0x2000 ≤ c.toNat && c.toNat ≤ 0x200a) ||
    [0x85, 0xa0, 0x1680, 0x2028, 0x2029, 0x202f, 0x205f, 0x3000].contains c.toNat

/-- White space of any script, and the ASCII separators 0x1c to 0x1f. -/
def isBlank (c : Char) : Bool := isWhite c || (0x1c ≤ c.toNat && c.toNat ≤ 0x1f)

theorem isBlank_of_isBreakable {c : Char} (h : isBreakable c = true) : isBlank c = true := by
  simp [isBlank, isWhite, h]

def strip (p : Char → Bool) (cs : List Char) : List Char :=
  ((cs.dropWhile p).reverse.dropWhile p).reverse

def trimRight (cs : List Char) : List Char :=
  (cs.reverse.dropWhile isBlank).reverse

/-- The characters left after removing blank ones at both ends. -/
def trim (cs : List Char) : List Char := strip isBlank cs

end Text
end BranchingStory
