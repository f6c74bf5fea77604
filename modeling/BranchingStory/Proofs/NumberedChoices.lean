import BranchingStory.Proofs.ConsoleRuns

/-!
# The number of a choice

A choice is listed under a number and taken by typing that number. Listing counts the pending choices up
from one and writes the counter; answering reads a counter back, with zeros and blanks around it that do
not count, and takes one off. No line of the list can be mistaken for another: a number ends at the dot
behind it, and different counters are written differently. So the choice that is taken is the one, and the
only one, that stands under the number in what was put out before the line was read.
-/

namespace BranchingStory

/-! ## Reading a number -/

namespace Text

variable {c : Char} {before text after : List Char}

-- The library states the bounds as codes of characters, which arithmetic cannot look into.
theorem toNat_of_isDigit (h : c.isDigit = true) : 48 ≤ c.toNat ∧ c.toNat ≤ 57 := Char.isDigit_iff_toNat.mp h

theorem decimalValue?_of_isDigit (h : c.isDigit = true) : decimalValue? c = some (c.toNat - '0'.toNat) := by
  obtain ⟨hlow, hhigh⟩ := toNat_of_isDigit h
  have hzero : decimalZeros.find? (fun z => z ≤ c.toNat && c.toNat < z + 10) = some 0x30 := by
    refine List.find?_cons_of_pos ?_
    simp only [Bool.and_eq_true, decide_eq_true_eq]
    omega
  rw [decimalValue?, hzero]
  rfl

theorem isDigit_of_isDigit (h : c.isDigit = true) : isDigit c = true := by
  rw [isDigit, decimalValue?_of_isDigit h]
  rfl

theorem not_isBlank_of_isDigit (h : c.isDigit = true) : ¬ isBlank c = true := by
  obtain ⟨hlow, hhigh⟩ := toNat_of_isDigit h
  have hspace : c ≠ ' ' := by
    rintro rfl
    exact absurd hlow (by decide)
  simp only [isBlank, isWhite, isBreakable, Bool.or_eq_true, Bool.and_eq_true, decide_eq_true_eq, beq_iff_eq,
    List.contains_eq_mem, List.mem_cons, List.not_mem_nil, or_false, hspace]
  omega

theorem toLower_of_isDigit (h : c.isDigit = true) : c.toLower = c := by
  obtain ⟨_, hhigh⟩ := toNat_of_isDigit h
  refine dif_neg fun hupper => ?_
  have hletter : 65 ≤ c.toNat := UInt32.le_iff_toNat_le.mp hupper.1
  omega

theorem dropWhile_isBlank (hne : text ≠ []) (htext : ∀ c ∈ text, ¬ isBlank c = true) (after : List Char) :
    (text ++ after).dropWhile isBlank = text ++ after := by
  obtain ⟨first, rest, rfl⟩ := List.exists_cons_of_ne_nil hne
  exact List.dropWhile_cons_of_neg (htext first List.mem_cons_self)

theorem trim_append (hbefore : ∀ c ∈ before, isBlank c = true) (hafter : ∀ c ∈ after, isBlank c = true)
    (hne : text ≠ []) (htext : ∀ c ∈ text, ¬ isBlank c = true) : trim (before ++ text ++ after) = text := by
  have hback : ∀ c ∈ after.reverse, isBlank c = true := fun c hc => hafter c (List.mem_reverse.mp hc)
  have hturned : ∀ c ∈ text.reverse, ¬ isBlank c = true := fun c hc => htext c (List.mem_reverse.mp hc)
  have hrest := dropWhile_isBlank (List.reverse_ne_nil_iff.mpr hne) hturned []
  rw [List.append_nil] at hrest
  rw [trim, strip, List.append_assoc, List.dropWhile_append_of_pos hbefore, dropWhile_isBlank hne htext,
    List.reverse_append, List.dropWhile_append_of_pos hback, hrest, List.reverse_reverse]

end Text

namespace Numeral

theorem leadingDigits_of_isDigit {text : List Char} (h : ∀ c ∈ text, c.isDigit = true) :
    leadingDigits text = text.map fun c => c.toNat - '0'.toNat := by
  induction text with
  | nil => rfl
  | cons c cs ih =>
    rw [leadingDigits, Text.decimalValue?_of_isDigit (h c List.mem_cons_self), List.map_cons,
      ih fun d hd => h d (List.mem_cons_of_mem _ hd)]

theorem read_of_isDigit {text : List Char} (hne : text ≠ []) (h : ∀ c ∈ text, c.isDigit = true)
    (hlength : text.length ≤ maxDigits) : read text = .ok (Nat.ofDigitChars 10 text 0) := by
  have hdigits : (leadingDigits text).length = text.length := by
    rw [leadingDigits_of_isDigit h, List.length_map]
  have hvalue : ofDigits (leadingDigits text) = Nat.ofDigitChars 10 text 0 := by
    rw [leadingDigits_of_isDigit h, ofDigits, List.foldl_map]
    rfl
  have hempty : (leadingDigits text).isEmpty = false :=
    List.isEmpty_eq_false_iff.mpr (List.length_pos_iff.mp (hdigits ▸ List.length_pos_iff.mpr hne))
  rw [read, hvalue, hdigits, hempty]
  simp [hlength]

end Numeral

namespace Command

theorem significant_of_isDigit {before digits after : List Char} (hbefore : ∀ c ∈ before, Text.isBlank c = true)
    (hafter : ∀ c ∈ after, Text.isBlank c = true) (hne : digits ≠ []) (hdigits : ∀ c ∈ digits, c.isDigit = true) :
    significant (String.ofList (before ++ digits ++ after)) = digits := by
  have hlower : ∀ c ∈ digits, c.toLower = id c := fun c hc => Text.toLower_of_isDigit (hdigits c hc)
  have hblank : ∀ c ∈ digits, ¬ Text.isBlank c = true := fun c hc => Text.not_isBlank_of_isDigit (hdigits c hc)
  rw [significant, String.toList_ofList, Text.trim_append hbefore hafter hne hblank, List.map_congr_left hlower,
    List.map_id]

end Command

/-! ## Writing a number -/

namespace Screen

/-- A text says which number it starts with if a dot ends the number. -/
theorem eq_of_numbered {m n : Nat} {first second : String}
    (h : toString m ++ ". " ++ first = toString n ++ ". " ++ second) : m = n := by
  have hdigits : ∀ (number : Nat) (text : String),
      (toString number ++ ". " ++ text).toList.takeWhile Char.isDigit = Nat.toDigits 10 number := by
    intro number text
    have hall : ∀ c ∈ Nat.toDigits 10 number, c.isDigit = true := fun c hc =>
      Nat.isDigit_of_mem_toDigits (by decide) (by decide) hc
    have hdot : (". " ++ text).toList.takeWhile Char.isDigit = [] := by
      rw [String.toList_append]
      rfl
    rw [String.append_assoc, String.toList_append, Nat.toString_eq_repr, Nat.toList_repr,
      List.takeWhile_append_of_pos hall, hdot, List.append_nil]
  have hsame : Nat.toDigits 10 m = Nat.toDigits 10 n := by
    rw [← hdigits m first, h, hdigits]
  rw [← Nat.ofDigitChars_ten_toDigits (n := m), hsame, Nat.ofDigitChars_ten_toDigits]

theorem getElem?_choiceLines (start : Nat) (choices : List Choice) (index : Nat) :
    (choiceLines start choices)[index]? =
      choices[index]?.map fun choice => toString (start + index) ++ ". " ++ choice.text := by
  induction choices generalizing start index with
  | nil => rfl
  | cons choice choices ih =>
    cases index with
    | zero => rfl
    | succ index =>
      rw [choiceLines, List.getElem?_cons_succ, List.getElem?_cons_succ, ih]
      simp only [Nat.add_assoc, Nat.add_comm 1 index]

/-- The choice at a place is listed under the number of the place, and no other is listed under it. -/
theorem choiceLines_number {choices : List Choice} {index : Nat} {choice : Choice}
    (hchoice : choices[index]? = some choice) :
    (choiceLines 1 choices)[index]? = some (toString (index + 1) ++ ". " ++ choice.text) ∧
      ∀ other text, (choiceLines 1 choices)[other]? = some (toString (index + 1) ++ ". " ++ text) →
        other = index := by
  refine ⟨?_, fun other text hother => ?_⟩
  · rw [getElem?_choiceLines, hchoice, Nat.add_comm 1 index]
    rfl
  · rw [getElem?_choiceLines] at hother
    obtain ⟨listed, _, hline⟩ := Option.map_eq_some_iff.mp hother
    have hnumber := eq_of_numbered hline
    omega

end Screen

/-! ## Typing the number -/

namespace Console

variable {c : Console} {before digits after : List Char}

theorem feed_of_isDigit (hhidden : c.hidden = []) (hwaiting : c.play.history.waiting = true)
    (hbefore : ∀ c ∈ before, Text.isBlank c = true) (hafter : ∀ c ∈ after, Text.isBlank c = true)
    (hne : digits ≠ []) (hdigits : ∀ c ∈ digits, c.isDigit = true) (hlength : digits.length ≤ Numeral.maxDigits)
    (time : String) : c.feed ⟨String.ofList (before ++ digits ++ after), time⟩ =
      c.take (c.play.chooseIndex ((Nat.ofDigitChars 10 digits 0 : Int) - 1)) := by
  have hanswers : Command.Answers c.play.history.waiting digits :=
    ⟨hwaiting, hne, fun d hd => Text.isDigit_of_isDigit (hdigits d hd)⟩
  rw [feed_of_hidden_eq_nil hhidden, Command.significant_of_isDigit hbefore hafter hne hdigits,
    Command.ofSignificant_of_answers hanswers, execute, answer, Numeral.read_of_isDigit hne hdigits hlength]

/-- The number that is shown takes the choice. A console waits at a prompt, and digits are typed that denote
`k`, with zeros in front and blanks around them or without. If `k` is the number of a pending choice, the
reply is that of choosing just the choice whose line in the list starts with `k`; any other `k` is answered
by the range of the numbers and changes nothing. -/
theorem feed_number (hhidden : c.hidden = []) (hwaiting : c.play.history.waiting = true)
    (hbefore : ∀ c ∈ before, Text.isBlank c = true) (hafter : ∀ c ∈ after, Text.isBlank c = true)
    (hne : digits ≠ []) (hdigits : ∀ c ∈ digits, c.isDigit = true) (hlength : digits.length ≤ Numeral.maxDigits)
    {k : Nat} (hk : Nat.ofDigitChars 10 digits 0 = k) (time : String) :
    c.prompt = .text (Screen.choicesText c.play.pendingChoices ++ "> ") ∧
    (1 ≤ k ∧ k ≤ c.play.pendingChoices.length → ∃ (index : Nat) (choice : Choice),
      c.play.pendingChoices[index]? = some choice ∧
      (Screen.choiceLines 1 c.play.pendingChoices)[index]? = some (toString k ++ ". " ++ choice.text) ∧
      (∀ other text, (Screen.choiceLines 1 c.play.pendingChoices)[other]? = some (toString k ++ ". " ++ text) →
        other = index) ∧
      c.feed ⟨String.ofList (before ++ digits ++ after), time⟩ = c.take (c.play.choose choice) ∧
      (c.take (c.play.choose choice)).ending = none ∧
      (c.take (c.play.choose choice)).console.session = { c.session with play := (c.play.choose choice).play }) ∧
    (¬ (1 ≤ k ∧ k ≤ c.play.pendingChoices.length) →
      c.feed ⟨String.ofList (before ++ digits ++ after), time⟩ = c.keep [say
        ("Please enter a value between 1 and " ++ toString c.play.pendingChoices.length ++ ".")]) := by
  have hfeed := feed_of_isDigit hhidden hwaiting hbefore hafter hne hdigits hlength time
  rw [hk] at hfeed
  refine ⟨by simp [prompt, hhidden, situation, hwaiting], ?listed, ?outside⟩
  case listed =>
    rintro ⟨hlow, hhigh⟩
    obtain ⟨index, rfl⟩ : ∃ index, k = index + 1 := ⟨k - 1, by omega⟩
    have hchoice : c.play.pendingChoices[index]? = some c.play.pendingChoices[index] := List.getElem?_eq_getElem hhigh
    have hat : c.play.choiceAt ((index + 1 : Nat) - 1 : Int) = some c.play.pendingChoices[index] := by
      rw [Play.choiceAt, if_neg (by omega), ← hchoice]
      congr 1
      omega
    obtain ⟨hline, honly⟩ := Screen.choiceLines_number hchoice
    rw [Play.chooseIndex_of_some hat] at hfeed
    obtain ⟨hending, hsession⟩ := take_of_done (c := c) (Play.choose_fault c.play.pendingChoices[index])
    exact ⟨index, _, hchoice, hline, honly, hfeed, hending, hsession⟩
  case outside =>
    intro hrange
    have hat : c.play.choiceAt ((k : Int) - 1) = none := by
      rw [Play.choiceAt]
      split
      · rfl
      · exact List.getElem?_eq_none (by omega)
    rw [hfeed, Play.chooseIndex_of_waiting hwaiting hat]
    rfl

def atCrossing : Console :=
  { session :=
      { play :=
          { script :=
              { graph :=
                  { nodes :=
                      [{ id := some "crossing", kind := .dialogueChoice,
                         choices := (List.range 11).map fun way => { text := "Way " ++ toString way } }] } }
            history := ⟨some "crossing", [], true, 10⟩
            world := { items := { kind := .items }, notes := { kind := .notes } } } }
    slot := { directory := {} }
    disk := {} }

/-- The tenth way goes by the number ten, written with a zero in front; there is no twelfth. -/
theorem atCrossing_feed_number :
    (∃ choice : Choice, choice.text = "Way 9" ∧ atCrossing.feed ⟨String.ofList [' ', '0', '1', '0', '\t'], "noon"⟩ =
      atCrossing.take (atCrossing.play.choose choice)) ∧
    atCrossing.feed ⟨String.ofList ['1', '2'], "noon"⟩ =
      atCrossing.keep [say "Please enter a value between 1 and 11."] := by
  have hspace : ∀ c ∈ [' '], Text.isBlank c = true := List.all_eq_true.mp rfl
  have htab : ∀ c ∈ ['\t'], Text.isBlank c = true := List.all_eq_true.mp rfl
  have hnone : ∀ c ∈ [], Text.isBlank c = true := List.all_eq_true.mp rfl
  have hten : ∀ c ∈ ['0', '1', '0'], c.isDigit = true := List.all_eq_true.mp rfl
  have htwelve : ∀ c ∈ ['1', '2'], c.isDigit = true := List.all_eq_true.mp rfl
  obtain ⟨_, hlisted, _⟩ := feed_number (c := atCrossing) (k := 10) rfl rfl hspace htab (by decide) hten (by decide)
    rfl "noon"
  obtain ⟨_, _, houtside⟩ := feed_number (c := atCrossing) (k := 12) rfl rfl hnone hnone (by decide) htwelve
    (by decide) rfl "noon"
  obtain ⟨index, choice, hchoice, _, honly, hfeed, _⟩ := hlisted (by decide)
  obtain rfl : 9 = index := honly 9 "Way 9" rfl
  obtain rfl : { text := "Way 9" } = choice := Option.some.inj hchoice
  exact ⟨⟨_, rfl, hfeed⟩, houtside (by decide)⟩

end Console
end BranchingStory
