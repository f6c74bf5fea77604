import BranchingStory.Number.Rounding
import BranchingStory.Text.Blank
import BranchingStory.Text.Digit
import BranchingStory.Text.Quoted

/-!
# Whole numbers that people type

A numeral consists of decimal digits of any script and may start with zeros. Its length is limited:
a longer one is refused before anything behind its digits is looked at. Where a number comes from a
setting, it may be written more freely: with white space around it, a sign, and its digits in groups.
-/

namespace BranchingStory
namespace Numeral

def maxDigits : Nat := 4300

inductive Fault where
  | tooManyDigits (count : Nat)
  | notNumeral (text : List Char)
deriving DecidableEq

def tooManyDigitsMessage (count : Nat) : String :=
  "Exceeds the limit (" ++ toString maxDigits ++
    " digits) for integer string conversion: value has " ++ toString count ++
    " digits; use sys.set_int_max_str_digits() to increase the limit"

/-- Whether a number has few enough digits to be written out. -/
def canBeTold (n : Int) : Bool := n.natAbs < Number.powerOfTen maxDigits

def untoldMessage : String :=
  "Exceeds the limit (" ++ toString maxDigits ++
    " digits) for integer string conversion; use sys.set_int_max_str_digits() to increase the limit"

/-- How much of a refused text, between its quotes, is shown. -/
def shownLength : Nat := 200

def Fault.message : Fault → String
  | tooManyDigits count => tooManyDigitsMessage count
  | notNumeral text =>
    "invalid literal for int() with base 10: " ++
      String.ofList ((Text.quoteChars text).take shownLength)

def ofDigits (values : List Nat) : Nat := values.foldl (fun n d => 10 * n + d) 0

/-- The values of the decimal digits that a text starts with. -/
def leadingDigits : List Char → List Nat
  | [] => []
  | c :: cs =>
    match Text.decimalValue? c with
    | some d => d :: leadingDigits cs
    | none => []

def read (text : List Char) : Except Fault Nat :=
  let digits := leadingDigits text
  if maxDigits < digits.length then .error (.tooManyDigits digits.length)
  else if digits.isEmpty || digits.length < text.length then .error (.notNumeral text)
  else .ok (ofDigits digits)

/-- The values of decimal digits, between which single low lines may stand. -/
def groupedDigits? : List Char → Option (List Nat)
  | [] => none
  | [c] => do return [← Text.decimalValue? c]
  | c :: '_' :: rest => do return (← Text.decimalValue? c) :: (← groupedDigits? rest)
  | c :: rest => do return (← Text.decimalValue? c) :: (← groupedDigits? rest)

/-- The positive number that a freely written text denotes. -/
def positive? (text : List Char) : Option Nat := do
  let digits ← groupedDigits? (match Text.strip Text.isWhite text with
    | '+' :: rest => rest
    | rest => rest)
  let n := ofDigits digits
  if 0 < n ∧ digits.length ≤ maxDigits then some n else none

end Numeral
end BranchingStory
