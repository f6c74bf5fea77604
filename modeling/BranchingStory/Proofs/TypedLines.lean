import BranchingStory.Console.Command
import BranchingStory.Text.Numeral
import Mathlib.Tactic.Common

/-!
# What typed lines mean

A line is a word for a command, or it has to consist of digits while a choice is pending. Whether digits denote a
number is another question, and the two part at both ends: a digit symbol counts as a digit and has no value, and a
numeral may only have so many digits. So a line can be taken for an answer and be none.
-/

namespace BranchingStory

namespace Numeral

variable {text : List Char}

/-- What keeps a text from being read as a number: a character without a value, or too many digits. -/
def Unreadable (text : List Char) : Prop :=
  (∃ c ∈ text, Text.decimalValue? c = none) ∨ maxDigits < text.length

theorem length_leadingDigits_le (text : List Char) : (leadingDigits text).length ≤ text.length := by
  induction text with
  | nil => exact Nat.le_refl 0
  | cons c cs ih =>
    unfold leadingDigits
    split
    · exact Nat.succ_le_succ ih
    · exact Nat.zero_le _

theorem length_leadingDigits_lt_iff :
    (leadingDigits text).length < text.length ↔ ∃ c ∈ text, Text.decimalValue? c = none := by
  induction text with
  | nil => simp [leadingDigits]
  | cons c cs ih =>
    cases hvalue : Text.decimalValue? c with
    | some d => simpa [leadingDigits, hvalue] using ih
    | none => simp [leadingDigits, hvalue]

theorem exists_read_eq_error_iff (hne : text ≠ []) : (∃ fault, read text = .error fault) ↔ Unreadable text := by
  have hle := length_leadingDigits_le text
  have hpos : 0 < text.length := List.length_pos_iff.mpr hne
  rw [Unreadable, ← length_leadingDigits_lt_iff]
  unfold read
  dsimp only
  split
  · rename_i hlong
    exact iff_of_true ⟨_, rfl⟩ (.inr (by omega))
  · rename_i hroom
    split
    · rename_i hshort
      refine iff_of_true ⟨_, rfl⟩ (.inl ?_)
      rcases Bool.or_eq_true_iff.mp hshort with hempty | hshort
      · rw [List.isEmpty_iff.mp hempty]
        exact hpos
      · exact of_decide_eq_true hshort
    · rename_i hread
      have hfull : ¬ (leadingDigits text).length < text.length := by
        intro hlt
        exact hread (Bool.or_eq_true_iff.mpr (.inr (decide_eq_true hlt)))
      refine iff_of_false ?_ ?_
      · rintro ⟨fault, hfault⟩
        cases hfault
      · rintro (hlt | hlong)
        · exact hfull hlt
        · omega

end Numeral

namespace Command

variable {waiting : Bool} {text : List Char}

/-- The word for a command. Going on has the empty one. -/
def word? : Command → Option (List Char)
  | quit => some ['q']
  | save => some ['s']
  | load => some ['l']
  | newGame => some ['n']
  | history => some ['h']
  | goOn => some []
  | answer _ | unknown => none

/-- The characters are taken for the number of a choice. -/
structure Answers (waiting : Bool) (text : List Char) : Prop where
  waiting : waiting = true
  ne_nil : text ≠ []
  digits : ∀ c ∈ text, Text.isDigit c = true

theorem any_isDigit_word {command : Command} {word : List Char} (h : command.word? = some word) :
    word.any Text.isDigit = false := by
  cases command <;> cases h <;> decide

theorem Answers.not_word (h : Answers waiting text) (command : Command) : command.word? ≠ some text := by
  intro hword
  obtain ⟨c, hc⟩ := List.exists_mem_of_ne_nil text h.ne_nil
  have hsome : text.any Text.isDigit = true := List.any_eq_true.mpr ⟨c, hc, h.digits c hc⟩
  rw [any_isDigit_word hword] at hsome
  cases hsome

theorem ofSignificant_of_word? {command : Command} (h : command.word? = some text) :
    ofSignificant waiting text = command := by
  cases command <;> cases h <;> rfl

theorem ofSignificant_of_not_word (h : ∀ command, word? command ≠ some text) :
    ofSignificant waiting text = if waiting && text.all Text.isDigit then answer text else unknown := by
  unfold ofSignificant
  split
  · exact absurd rfl (h .quit)
  · exact absurd rfl (h .save)
  · exact absurd rfl (h .load)
  · exact absurd rfl (h .newGame)
  · exact absurd rfl (h .history)
  · exact absurd rfl (h .goOn)
  · rfl

theorem ofSignificant_of_answers (h : Answers waiting text) : ofSignificant waiting text = .answer text := by
  rw [ofSignificant_of_not_word h.not_word]
  exact if_pos (Bool.and_eq_true_iff.mpr ⟨h.waiting, List.all_eq_true.mpr h.digits⟩)

/-- A line is a word, or the number of a choice, or nothing that is known. -/
theorem ofSignificant_cases (waiting : Bool) (text : List Char) :
    (∃ command, command.word? = some text ∧ ofSignificant waiting text = command) ∨
      (Answers waiting text ∧ ofSignificant waiting text = .answer text) ∨
      ofSignificant waiting text = .unknown := by
  by_cases hword : ∃ command, word? command = some text
  · obtain ⟨command, hword⟩ := hword
    exact .inl ⟨command, hword, ofSignificant_of_word? hword⟩
  · have hnone : ∀ command, word? command ≠ some text := not_exists.mp hword
    have hne : text ≠ [] := fun hnil => hnone .goOn (hnil ▸ rfl)
    rw [ofSignificant_of_not_word hnone]
    by_cases hanswers : (waiting && text.all Text.isDigit) = true
    · obtain ⟨hwaiting, hdigits⟩ := Bool.and_eq_true_iff.mp hanswers
      exact .inr (.inl ⟨⟨hwaiting, hne, List.all_eq_true.mp hdigits⟩, if_pos hanswers⟩)
    · exact .inr (.inr (if_neg hanswers))

end Command
end BranchingStory
