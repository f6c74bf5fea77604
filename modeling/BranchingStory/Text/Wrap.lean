import BranchingStory.Text.Blank

/-!
# Word wrap

A paragraph is cut into chunks, alternately words and the spaces between them. Lines are filled with
as many chunks as fit; a word that fits on no line stands on one of its own. Blank chunks are dropped
at the end of every line and at the start of every line but the first. A word made of blank characters
that no line breaks at, such as an ideographic space, counts as blank here.
-/

namespace BranchingStory
namespace Text

/-- Tabs replaced by spaces up to the next multiple of eight columns; line ends start again at column
zero. -/
def expandTabs (column : Nat) : List Char → List Char
  | [] => []
  | c :: rest =>
    if c = '\t' then List.replicate (8 - column % 8) ' ' ++ expandTabs 0 rest
    else if c = '\n' ∨ c = '\r' then c :: expandTabs 0 rest
    else c :: expandTabs (column + 1) rest

/-- A paragraph in which the space is the only breakable character. -/
def spaced (cs : List Char) : List Char :=
  (expandTabs 0 cs).map fun c => if isBreakable c then ' ' else c

/-- The maximal runs of spaces and of other characters. -/
def chunks : List Char → List (List Char)
  | [] => []
  | c :: rest =>
    match chunks rest with
    | (d :: run) :: more =>
      if (c == ' ') == (d == ' ') then (c :: d :: run) :: more else [c] :: (d :: run) :: more
    | _ => [[c]]

def isBlankChunk (chunk : List Char) : Bool := chunk.all isBlank

/-- The chunks that fit behind `used` columns of a line, and the others. -/
def fill (width used : Nat) : List (List Char) → List (List Char) × List (List Char)
  | [] => ([], [])
  | chunk :: rest =>
    if used + chunk.length ≤ width then
      let filled := fill width (used + chunk.length) rest
      (chunk :: filled.1, filled.2)
    else ([], chunk :: rest)

/-- The chunks of the next line, and the others; a chunk that is too long stands alone. -/
def takeLine (width : Nat) (cs : List (List Char)) : List (List Char) × List (List Char) :=
  match fill width 0 cs with
  | ([], chunk :: rest) => ([chunk], rest)
  | filled => filled

def dropBlankFirst : List (List Char) → List (List Char)
  | [] => []
  | chunk :: rest => if isBlankChunk chunk then rest else chunk :: rest

def dropBlankLast (line : List (List Char)) : List (List Char) :=
  match line.getLast? with
  | some chunk => if isBlankChunk chunk then line.dropLast else line
  | none => line

theorem length_fill_le (width used : Nat) (cs : List (List Char)) :
    (fill width used cs).2.length ≤ cs.length := by
  induction cs generalizing used with
  | nil => simp [fill]
  | cons chunk rest ih =>
    unfold fill
    split
    · have := ih (used + chunk.length)
      simp only [List.length_cons]
      omega
    · simp

theorem length_takeLine_lt (width : Nat) {cs : List (List Char)} (h : cs ≠ []) :
    (takeLine width cs).2.length < cs.length := by
  cases cs with
  | nil => exact absurd rfl h
  | cons chunk rest =>
    unfold takeLine
    by_cases hfit : chunk.length ≤ width
    · have := length_fill_le width chunk.length rest
      simp only [fill, Nat.zero_add, hfit, if_true, List.length_cons]
      omega
    · simp [fill, hfit]

theorem length_dropBlankFirst_le (cs : List (List Char)) :
    (dropBlankFirst cs).length ≤ cs.length := by
  cases cs with
  | nil => simp [dropBlankFirst]
  | cons chunk rest =>
    by_cases h : isBlankChunk chunk = true <;> simp [dropBlankFirst, h]

def layout (width : Nat) (first : Bool) (cs : List (List Char)) : List (List Char) :=
  if cs.isEmpty then []
  else
    let filled := takeLine width (if first then cs else dropBlankFirst cs)
    let line := dropBlankLast filled.1
    if line.isEmpty then layout width first filled.2
    else line.flatten :: layout width false filled.2
termination_by cs.length
decreasing_by
  all_goals
    have hcs : cs ≠ [] := by simp_all
    have hlen : 0 < cs.length := List.length_pos_iff.mpr hcs
    change (takeLine width (if first then cs else dropBlankFirst cs)).2.length < cs.length
    split
    · exact length_takeLine_lt width hcs
    · by_cases hd : dropBlankFirst cs = []
      · simpa [hd, takeLine, fill] using hlen
      · exact Nat.lt_of_lt_of_le (length_takeLine_lt width hd) (length_dropBlankFirst_le cs)

/-- The lines of a paragraph, each behind the indent and within the width as far as its words allow.
A paragraph without words has one line, the indent without its blanks. -/
def wrap (width : Int) (indent : String) (paragraph : String) : List String :=
  let available := max width.toNat (indent.length + 1) - indent.length
  let lines := layout available true (chunks (spaced paragraph.toList))
  if lines.isEmpty then [String.ofList (trimRight indent.toList)]
  else lines.map fun line => indent ++ String.ofList line

end Text
end BranchingStory
