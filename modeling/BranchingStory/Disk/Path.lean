/-!
# Paths

A path is a root, which may be empty, followed by parts. Reading a path drops empty parts and single
dots; a double dot is kept, since what it means depends on the disk.
-/

namespace BranchingStory

/-- Where a path starts: at the working directory, at the root, or at the root written with exactly
two slashes, which is kept apart in the text of the path. -/
inductive Anchor where
  | relative
  | root
  | doubleRoot
deriving DecidableEq

structure Path where
  anchor : Anchor := .relative
  parts : List String := []
deriving DecidableEq

namespace Anchor

def text : Anchor → String
  | relative => ""
  | root => "/"
  | doubleRoot => "//"

/-- The anchor of a path, and what follows it. -/
def ofChars : List Char → Anchor × List Char
  | '/' :: '/' :: '/' :: rest => (root, rest)
  | '/' :: '/' :: rest => (doubleRoot, rest)
  | '/' :: rest => (root, rest)
  | cs => (relative, cs)

end Anchor

namespace Path

def splitSlashes : List Char → List (List Char)
  | [] => [[]]
  | c :: rest =>
    if c = '/' then [] :: splitSlashes rest
    else match splitSlashes rest with
      | [] => [[c]]
      | piece :: pieces => (c :: piece) :: pieces

/-- Whether a piece of a path's text is a part of the path. -/
def isPart (piece : List Char) : Bool := !piece.isEmpty && piece != ['.']

def ofText (text : String) : Path :=
  let (anchor, rest) := Anchor.ofChars text.toList
  { anchor, parts := ((splitSlashes rest).filter isPart).map String.ofList }

/-- The text of a path; the working directory is a single dot. -/
def text (p : Path) : String :=
  if p.anchor = .relative ∧ p.parts = [] then "."
  else p.anchor.text ++ "/".intercalate p.parts

/-- The path `q`, taken from `p` on; a path with a root does not depend on where it is taken from. -/
def join (p q : Path) : Path :=
  if q.anchor = .relative then { p with parts := p.parts ++ q.parts } else q

instance : Div Path := ⟨join⟩

def file (p : Path) (name : String) : Path := p / ofText name

def parent (p : Path) : Path := { p with parts := p.parts.dropLast }

theorem join_join (p q r : Path) : (p / q) / r = p / (q / r) := by
  simp only [HDiv.hDiv, Div.div, join]
  by_cases hq : q.anchor = .relative <;> by_cases hr : r.anchor = .relative <;> simp [hq, hr]

end Path
end BranchingStory
