import BranchingStory.Text.Utf8

/-!
# Decoding UTF-8

The decoder accepts the encodings of texts and nothing else, and gives the text that was encoded. A sequence of
bytes that it refuses is therefore the encoding of no text at all.
-/

namespace BranchingStory
namespace Utf8

/-! ## Bytes by their numbers -/

theorem isContinuation_iff {b : UInt8} : isContinuation b = true ↔ 0x80 ≤ b.toNat ∧ b.toNat ≤ 0xbf := by
  simp [isContinuation, UInt8.le_iff_toNat_le]

theorem isSecondOfThree_iff {a b : UInt8} : isSecondOfThree a b = true ↔
    isContinuation b = true ∧ (a.toNat = 0xe0 → 0xa0 ≤ b.toNat) ∧ (a.toNat = 0xed → b.toNat < 0xa0) := by
  simp only [isSecondOfThree, Bool.and_eq_true, Bool.not_eq_true', Bool.and_eq_false_iff, beq_eq_false_iff_ne,
    decide_eq_false_iff_not, ne_eq, UInt8.le_iff_toNat_le, UInt8.lt_iff_toNat_lt, ← UInt8.toNat_inj, and_assoc,
    UInt8.reduceToNat]
  refine and_congr_right fun _ => ?_
  omega

theorem isSecondOfFour_iff {a b : UInt8} : isSecondOfFour a b = true ↔
    isContinuation b = true ∧ (a.toNat = 0xf0 → 0x90 ≤ b.toNat) ∧ (a.toNat = 0xf4 → b.toNat < 0x90) := by
  simp only [isSecondOfFour, Bool.and_eq_true, Bool.not_eq_true', Bool.and_eq_false_iff, beq_eq_false_iff_ne,
    decide_eq_false_iff_not, ne_eq, UInt8.le_iff_toNat_le, UInt8.lt_iff_toNat_lt, ← UInt8.toNat_inj, and_assoc,
    UInt8.reduceToNat]
  refine and_congr_right fun _ => ?_
  omega

/-! ## The forms of a character -/

/-- The bytes of one character, and its number. -/
inductive Form : List UInt8 → Nat → Prop where
  | one {a : UInt8} (ha : a.toNat < 0x80) : Form [a] a.toNat
  | two {a b : UInt8} (ha : 0xc2 ≤ a.toNat ∧ a.toNat < 0xe0) (hb : isContinuation b = true) :
      Form [a, b] (a.toNat % 32 * 64 + payload b)
  | three {a b c : UInt8} (ha : 0xe0 ≤ a.toNat ∧ a.toNat < 0xf0) (hb : isSecondOfThree a b = true)
      (hc : isContinuation c = true) : Form [a, b, c] ((a.toNat % 16 * 64 + payload b) * 64 + payload c)
  | four {a b c d : UInt8} (ha : 0xf0 ≤ a.toNat ∧ a.toNat ≤ 0xf4) (hb : isSecondOfFour a b = true)
      (hc : isContinuation c = true) (hd : isContinuation d = true) :
      Form [a, b, c, d] (((a.toNat % 8 * 64 + payload b) * 64 + payload c) * 64 + payload d)

theorem Form.isValidChar {bytes : List UInt8} {n : Nat} (h : Form bytes n) : n.isValidChar := by
  cases h with
  | one ha => left; omega
  | two ha hb =>
    left
    have := isContinuation_iff.mp hb
    simp only [payload]
    omega
  | three ha hb hc =>
    obtain ⟨hb, hlow, hhigh⟩ := isSecondOfThree_iff.mp hb
    have := isContinuation_iff.mp hb
    have := isContinuation_iff.mp hc
    simp only [Nat.isValidChar, payload]
    omega
  | four ha hb hc hd =>
    obtain ⟨hb, hlow, hhigh⟩ := isSecondOfFour_iff.mp hb
    have := isContinuation_iff.mp hb
    have := isContinuation_iff.mp hc
    have := isContinuation_iff.mp hd
    right
    simp only [payload]
    omega

theorem toNat_ofNat_of_isValidChar {n : Nat} (h : n.isValidChar) : (Char.ofNat n).toNat = n := by
  rw [Char.ofNat, dif_pos h]
  rfl

theorem Form.encodeChar_ofNat {bytes : List UInt8} {n : Nat} (h : Form bytes n) :
    encodeChar (Char.ofNat n) = bytes := by
  have hn := toNat_ofNat_of_isValidChar h.isValidChar
  rw [encodeChar, hn]
  cases h with
  | one ha =>
    rw [if_pos ha, UInt8.ofNat_toNat]
  | two ha hb => 
    have := isContinuation_iff.mp hb
    rw [if_neg (by simp only [payload]; omega), if_pos (by simp only [payload]; omega)]
    simp only [List.cons.injEq, and_true, ← UInt8.toNat_inj, UInt8.toNat_ofNat', payload]
    omega
  | three ha hb hc =>
    obtain ⟨hb, hlow, hhigh⟩ := isSecondOfThree_iff.mp hb
    have := isContinuation_iff.mp hb
    have := isContinuation_iff.mp hc
    rw [if_neg (by simp only [payload]; omega), if_neg (by simp only [payload]; omega),
      if_pos (by simp only [payload]; omega)]
    simp only [List.cons.injEq, and_true, ← UInt8.toNat_inj, UInt8.toNat_ofNat', payload]
    omega
  | four ha hb hc hd =>
    obtain ⟨hb, hlow, hhigh⟩ := isSecondOfFour_iff.mp hb
    have := isContinuation_iff.mp hb
    have := isContinuation_iff.mp hc
    have := isContinuation_iff.mp hd
    rw [if_neg (by simp only [payload]; omega), if_neg (by simp only [payload]; omega),
      if_neg (by simp only [payload]; omega)]
    simp only [List.cons.injEq, and_true, ← UInt8.toNat_inj, UInt8.toNat_ofNat', payload]
    omega

theorem Form.of_eq {bytes : List UInt8} {n m : Nat} (h : Form bytes n) (heq : n = m) : Form bytes m := heq ▸ h

theorem form_encodeChar (c : Char) : Form (encodeChar c) c.toNat := by
  have hvalid : c.toNat.isValidChar := c.valid
  generalize hn : c.toNat = n at hvalid
  simp only [Nat.isValidChar] at hvalid
  rw [encodeChar, hn]
  split
  · refine (Form.one ?_).of_eq ?_ <;> simp only [UInt8.toNat_ofNat'] <;> omega
  split
  · refine (Form.two ?_ (isContinuation_iff.mpr ?_)).of_eq ?_ <;> simp only [UInt8.toNat_ofNat', payload] <;> omega
  split
  · refine (Form.three ?_ (isSecondOfThree_iff.mpr ⟨isContinuation_iff.mpr ?_, ?_, ?_⟩)
      (isContinuation_iff.mpr ?_)).of_eq ?_ <;> simp only [UInt8.toNat_ofNat', payload] <;> omega
  · refine (Form.four ?_ (isSecondOfFour_iff.mpr ⟨isContinuation_iff.mpr ?_, ?_, ?_⟩)
      (isContinuation_iff.mpr ?_) (isContinuation_iff.mpr ?_)).of_eq ?_ <;>
      simp only [UInt8.toNat_ofNat', payload] <;> omega

/-! ## Decoding -/

theorem charOf_eq_ok {n : Nat} {rest : Except Fault (List Char)} {cs : List Char} (h : charOf n rest = .ok cs) :
    ∃ others, rest = .ok others ∧ cs = Char.ofNat n :: others := by
  cases rest with
  | error fault => cases h
  | ok others => exact ⟨others, rfl, (Except.ok.inj h).symm⟩

/-- A form is decoded as the character with its number. -/
theorem Form.decodeFrom_append {bytes : List UInt8} {n : Nat} (h : Form bytes n) (position : Nat)
    (rest : List UInt8) :
    decodeFrom position (bytes ++ rest) = charOf n (decodeFrom (position + bytes.length) rest) := by
  rw [decodeFrom.eq_def]
  cases h with
  | one ha => simp [UInt8.lt_iff_toNat_lt, ha]
  | @two a b ha hb =>
    have hfirst : ¬ a < 0x80 ∧ ¬ a < 0xc2 ∧ ¬ 0xf4 < a ∧ a < 0xe0 := by
      simp only [UInt8.lt_iff_toNat_lt, UInt8.reduceToNat]
      omega
    simp [hfirst, hb]
  | @three a b c ha hb hc =>
    have hfirst : ¬ a < 0x80 ∧ ¬ a < 0xc2 ∧ ¬ 0xf4 < a ∧ ¬ a < 0xe0 ∧ a < 0xf0 := by
      simp only [UInt8.lt_iff_toNat_lt, UInt8.reduceToNat]
      omega
    simp [hfirst, hb, hc]
  | @four a b c d ha hb hc hd =>
    have hfirst : ¬ a < 0x80 ∧ ¬ a < 0xc2 ∧ ¬ 0xf4 < a ∧ ¬ a < 0xe0 ∧ ¬ a < 0xf0 := by
      simp only [UInt8.lt_iff_toNat_lt, UInt8.reduceToNat]
      omega
    simp [hfirst, hb, hc, hd]

theorem decodeFrom_flatMap_encodeChar (position : Nat) (cs : List Char) :
    decodeFrom position (cs.flatMap encodeChar) = .ok cs := by
  induction cs generalizing position with
  | nil => rfl
  | cons c cs ih =>
    rw [List.flatMap_cons, (form_encodeChar c).decodeFrom_append, ih, charOf, Char.ofNat_toNat]
    rfl

theorem flatMap_encodeChar_of_charOf {n : Nat} {bytes rest : List UInt8} {decoded : Except Fault (List Char)}
    {cs : List Char} (hform : Form bytes n)
    (hrest : ∀ {others}, decoded = .ok others → others.flatMap encodeChar = rest) (h : charOf n decoded = .ok cs) :
    cs.flatMap encodeChar = bytes ++ rest := by
  obtain ⟨others, hothers, rfl⟩ := charOf_eq_ok h
  rw [List.flatMap_cons, hform.encodeChar_ofNat, hrest hothers]

theorem start_bounds {a : UInt8} (h : ¬ (a < 0xc2 || 0xf4 < a) = true) : 0xc2 ≤ a.toNat ∧ a.toNat ≤ 0xf4 := by
  simp only [Bool.or_eq_true, decide_eq_true_eq, UInt8.lt_iff_toNat_lt, UInt8.reduceToNat] at h
  omega

/-- Whatever is decoded has been encoded. -/
theorem flatMap_encodeChar_of_decodeFrom {position : Nat} {bytes : List UInt8} {cs : List Char}
    (h : decodeFrom position bytes = .ok cs) : cs.flatMap encodeChar = bytes := by
  fun_induction decodeFrom position bytes generalizing cs
  -- A fault decodes to nothing, and what does decode begins with one of the four forms.
  all_goals try cases h
  case case1 => rfl
  case case2 ha ih => exact flatMap_encodeChar_of_charOf (.one (UInt8.lt_iff_toNat_lt.mp ha)) ih h
  case case5 hstart htwo _ _ hb ih =>
    have hbounds := start_bounds hstart
    have htwo := UInt8.lt_iff_toNat_lt.mp htwo
    exact flatMap_encodeChar_of_charOf (.two ⟨hbounds.1, htwo⟩ hb) ih h
  case case9 _ htwo hthree _ hb _ _ hc ih =>
    have htwo := mt UInt8.lt_iff_toNat_lt.mpr htwo
    have hthree := UInt8.lt_iff_toNat_lt.mp hthree
    exact flatMap_encodeChar_of_charOf (.three ⟨Nat.le_of_not_lt htwo, hthree⟩ hb hc) ih h
  case case15 hstart _ hthree _ hb _ hc _ _ hd ih =>
    have hbounds := start_bounds hstart
    have hthree := mt UInt8.lt_iff_toNat_lt.mpr hthree
    exact flatMap_encodeChar_of_charOf (.four ⟨Nat.le_of_not_lt hthree, hbounds.2⟩ hb hc hd) ih h

theorem decode_eq_ok_iff {bytes : List UInt8} {cs : List Char} :
    decode bytes = .ok cs ↔ cs.flatMap encodeChar = bytes := by
  constructor
  · exact flatMap_encodeChar_of_decodeFrom
  · rintro rfl
    exact decodeFrom_flatMap_encodeChar 0 cs

theorem decode_encode (text : String) : decode (encode text) = .ok text.toList := decode_eq_ok_iff.mpr rfl

theorem encode_ofList_of_decode {bytes : List UInt8} {cs : List Char} (h : decode bytes = .ok cs) :
    encode (String.ofList cs) = bytes := by
  rw [encode, String.toList_ofList]
  exact decode_eq_ok_iff.mp h

theorem exists_decode_eq_error_iff {bytes : List UInt8} :
    (∃ fault, decode bytes = .error fault) ↔ ∀ text, encode text ≠ bytes := by
  constructor
  · rintro ⟨fault, hfault⟩ text rfl
    rw [decode_encode] at hfault
    cases hfault
  · intro hnone
    cases hdecode : decode bytes with
    | error fault => exact ⟨fault, rfl⟩
    | ok cs => exact absurd (encode_ofList_of_decode hdecode) (hnone _)

end Utf8
end BranchingStory
