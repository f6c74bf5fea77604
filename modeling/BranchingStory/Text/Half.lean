/-!
# Halves of a pair

An escape can write half of a sixteen-bit pair on its own, which is no character. A private character at
the end of the last plane stands for it: different halves stay different, and when such a text is
written the half is written again.
-/

namespace BranchingStory
namespace Text

def isHighHalf (unit : Nat) : Bool := 0xd800 ≤ unit && unit < 0xdc00

def isLowHalf (unit : Nat) : Bool := 0xdc00 ≤ unit && unit < 0xe000

/-- The distance between a half and the character that stands for it. -/
def halfOffset : Nat := 0x100000

def ofUnit (unit : Nat) : Char :=
  if isHighHalf unit || isLowHalf unit then Char.ofNat (halfOffset + unit) else Char.ofNat unit

/-- The half that a character stands for, if it stands for one. -/
def half? (c : Char) : Option Nat :=
  let unit := c.toNat - halfOffset
  if isHighHalf unit || isLowHalf unit then some unit else none

end Text
end BranchingStory
