/-!
# Lines

A text file may end its lines with a carriage return, a line feed or both; all three read as a line
feed. A position in a text is told to people as a line and a column, both counted from one.
-/

namespace BranchingStory
namespace Text

/-- Every line ending as a single line feed. -/
def normalizeLineEndings : List Char → List Char
  | [] => []
  | '\r' :: '\n' :: rest => '\n' :: normalizeLineEndings rest
  | c :: rest => (if c = '\r' then '\n' else c) :: normalizeLineEndings rest

theorem normalizeLineEndings_of_not_mem {cs : List Char} (h : '\r' ∉ cs) : normalizeLineEndings cs = cs := by
  fun_induction normalizeLineEndings cs with
  | case1 => rfl
  | case2 rest ih => exact absurd List.mem_cons_self h
  | case3 c rest hpair ih =>
    rw [List.mem_cons, not_or] at h
    rw [if_neg (Ne.symm h.1), ih h.2]

def splitLines : List Char → List (List Char)
  | [] => [[]]
  | c :: rest =>
    if c = '\n' then [] :: splitLines rest
    else match splitLines rest with
      | [] => [[c]]
      | line :: lines => (c :: line) :: lines

def lineNumber (cs : List Char) (position : Nat) : Nat :=
  (cs.take position).count '\n' + 1

def columnNumber (cs : List Char) (position : Nat) : Nat :=
  ((cs.take position).reverse.takeWhile (· != '\n')).length + 1

end Text
end BranchingStory
