import BranchingStory.Text.Half
import BranchingStory.Text.Hex
import BranchingStory.Text.Lines

/-!
# Character sets

What is put out is written in a character set. A line with a character that is not in the set is not
written at all, and nothing that comes behind it.
-/

namespace BranchingStory

structure Charset where
  name : String
  has : Char → Bool
  /-- The words for a character that is not in the set. -/
  lack : String
  has_ascii : ∀ c : Char, c.toNat < 0x80 → has c = true

/-- Why a line is not written: characters of it that are not in the set, and their position in the line. -/
structure Charset.Fault where
  charset : String
  lack : String
  first : Char
  count : Nat
  position : Nat
deriving DecidableEq

namespace Charset

/-- All characters and, with them, the halves of pairs. -/
def everything : Charset := ⟨"utf-8", fun _ => true, "", fun _ _ => rfl⟩

theorem half?_of_ascii {c : Char} (h : c.toNat < 0x80) : Text.half? c = none := by
  have hzero : c.toNat - Text.halfOffset = 0 := Nat.sub_eq_zero_of_le (by unfold Text.halfOffset; omega)
  rw [Text.half?, hzero]
  rfl

/-- All characters; half of a pair is none. -/
def utf8 : Charset :=
  { name := "utf-8"
    has := fun c => (Text.half? c).isNone
    lack := "surrogates not allowed"
    has_ascii := fun c h => by rw [half?_of_ascii h]; rfl }

/-- A character as a message names it. -/
def charName (c : Char) : String :=
  let code := (Text.half? c).getD c.toNat
  String.ofList
    (if code ≤ 0xff then '\\' :: 'x' :: Text.hex 2 code
    else if code ≤ 0xffff then '\\' :: 'u' :: Text.hex 4 code
    else '\\' :: 'U' :: Text.hex 8 code)

def Fault.message (f : Fault) : String :=
  "'" ++ f.charset ++ "' codec can't encode character" ++
    (if f.count = 1 then " '" ++ charName f.first ++ "' in position " ++ toString f.position
    else "s in position " ++ toString f.position ++ "-" ++ toString (f.position + f.count - 1)) ++
    ": " ++ f.lack

variable (cs : Charset)

/-- The characters of a text before the first that is not in the set. -/
def writable (text : List Char) : List Char := text.takeWhile cs.has

/-- Why a text is not written to its end, if it is not. -/
def fault? (text : List Char) : Option Fault :=
  let fine := cs.writable text
  match text.drop fine.length with
  | [] => none
  | c :: rest =>
    some
      { charset := cs.name
        lack := cs.lack
        first := c
        count := (rest.takeWhile fun c => !cs.has c).length + 1
        position := Text.columnNumber text fine.length - 1 }

/-- The part of a text that is written: whole lines, if there is a fault in a later one. -/
def written (text : List Char) : List Char :=
  match cs.fault? text with
  | none => text
  | some fault => text.take ((cs.writable text).length - fault.position)

end Charset
end BranchingStory
