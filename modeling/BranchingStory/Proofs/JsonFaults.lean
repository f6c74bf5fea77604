import BranchingStory.Json.Reader

/-!
# Texts that are too much to read

The reader goes through a text from its beginning to its end and never back. What it stops at is a fault of the
text, but for two things. A whole number may have more digits than are allowed; then so many digits stand next to
each other in the text. Or more arrays and objects than are allowed stand inside each other; then the text opens
more of them. Every value that is read keeps both limits. The reader never stops for want of fuel.
-/

namespace BranchingStory
namespace Json

/-- So many decimal digits stand next to each other in a text. -/
def HasDigits (text : List Char) (count : Nat) : Prop :=
  ∃ digits : List Char, digits.length = count ∧ (∀ d ∈ digits, d.isDigit = true) ∧ digits <:+: text

theorem HasDigits.of_suffix {text rest : List Char} {count : Nat} (h : HasDigits rest count) (hrest : rest <:+ text) :
    HasDigits text count := by
  obtain ⟨digits, hlength, hdigits, hinfix⟩ := h
  exact ⟨digits, hlength, hdigits, hinfix.trans hrest.isInfix⟩

def isOpening (ch : Char) : Bool := ch = '[' || ch = '\x7b'

def openings (text : List Char) : Nat := text.countP isOpening

theorem openings_le_of_suffix {text rest : List Char} (h : rest <:+ text) : openings rest ≤ openings text :=
  h.sublist.countP_le

theorem openings_cons {ch : Char} {chars : List Char} (h : isOpening ch = true) :
    openings (ch :: chars) = openings chars + 1 := List.countP_cons_of_pos h

/-- At most so many arrays and objects of a value stand inside each other, and its whole numbers are as `Whole`
says. -/
def Bounded (Whole : Int → Prop) : Nat → Json → Prop
  | _, .number (.int n) => Whole n
  | 0, .array _ | 0, .object _ => False
  | room + 1, .array items => ∀ item ∈ items, Bounded Whole room item
  | room + 1, .object members => ∀ member ∈ members, Bounded Whole room member.2
  | _, _ => True

/-- At most so many arrays and objects of a value stand inside each other. -/
def NestsWithin (room : Nat) (j : Json) : Prop := Bounded (fun _ => True) room j

/-- A value that can be read: it does not nest too deep, and its whole numbers can be told. -/
def Readable (room : Nat) (j : Json) : Prop := Bounded (fun n => Numeral.canBeTold n = true) room j

section Bounded

variable {Whole : Int → Prop} {room : Nat}

theorem bounded_int {n : Int} : Bounded Whole room (.int n) ↔ Whole n := by
  cases room <;> exact Iff.rfl

theorem bounded_double (d : Double) : Bounded Whole room (.double d) := by
  cases room <;> trivial

theorem bounded_string (s : String) : Bounded Whole room (.string s) := by
  cases room <;> trivial

theorem bounded_of_mem_constants {entry : List Char × Json} (h : entry ∈ constants) : Bounded Whole room entry.2 := by
  simp only [constants, List.mem_cons, List.not_mem_nil, or_false] at h
  rcases h with rfl | rfl | rfl | rfl | rfl | rfl <;> cases room <;> trivial

theorem mem_insert {m : Assoc Json} {key : String} {value : Json} {entry : String × Json}
    (h : entry ∈ Assoc.insert m key value) : entry.2 = value ∨ entry ∈ m := by
  induction m with
  | nil => exact .inl (congrArg Prod.snd (List.mem_singleton.mp h))
  | cons first rest ih =>
    rw [Assoc.insert] at h
    split at h
    all_goals rcases List.mem_cons.mp h with rfl | h
    · exact .inl rfl
    · exact .inr (List.mem_cons_of_mem _ h)
    · exact .inr List.mem_cons_self
    · exact (ih h).imp_right (List.mem_cons_of_mem _)

theorem bounded_ofMembers {pairs : List (String × Json)} (h : ∀ pair ∈ pairs, Bounded Whole room pair.2) :
    Bounded Whole (room + 1) (ofMembers pairs) := by
  have hoverlay : ∀ (new m : Assoc Json), (∀ entry ∈ m, Bounded Whole room entry.2) →
      (∀ entry ∈ new, Bounded Whole room entry.2) → ∀ entry ∈ Assoc.overlay m new, Bounded Whole room entry.2 := by
    intro new
    induction new with
    | nil => exact fun m hm _ => hm
    | cons first rest ih =>
      intro m hm hnew
      refine ih _ ?_ fun entry hentry => hnew entry (List.mem_cons_of_mem _ hentry)
      intro entry hentry
      rcases mem_insert hentry with hvalue | hold
      · rw [hvalue]
        exact hnew first List.mem_cons_self
      · exact hm entry hold
  exact hoverlay pairs [] (fun _ hnil => absurd hnil List.not_mem_nil) h

end Bounded

namespace Cursor

variable {α β : Type} {c : Cursor} {room : Nat} {Good : α → Prop} {Better : β → Prop}

theorem advance_suffix (n : Nat) : (c.advance n).rest <:+ c.rest := List.drop_suffix n c.rest

theorem skipSpace_suffix : c.skipSpace.rest <:+ c.rest := advance_suffix _

theorem digits_suffix : c.digits.2.rest <:+ c.rest := advance_suffix _

/-- What a reader makes of a text: it leaves the end of the text and has read something good, or finds the text
malformed, or stops at a number with too many digits, all of which are in the text, or at more arrays and objects
inside each other than there is room for. -/
inductive Reads (c : Cursor) (room : Nat) (Good : α → Prop) : Except Fault (α × Cursor) → Prop where
  | ok {a : α} {after : Cursor} (hgood : Good a) (h : after.rest <:+ c.rest) : c.Reads room Good (.ok (a, after))
  | malformed (reason : Reason) (position : Nat) : c.Reads room Good (.error (.malformed reason position))
  | tooManyDigits {count : Nat} (hcount : Numeral.maxDigits < count) (h : HasDigits c.rest count) :
      c.Reads room Good (.error (.tooManyDigits count))
  | tooDeep {shape : Shape} (h : room < openings c.rest) : c.Reads room Good (.error (.tooDeep shape))

theorem reads_fail (found : Cursor) (reason : Reason) : c.Reads room Good (found.fail reason) :=
  .malformed reason found.position

theorem Reads.of_suffix {start : Cursor} {x : Except Fault (α × Cursor)} (h : c.Reads room Good x)
    (hsuffix : c.rest <:+ start.rest) : start.Reads room Good x := by
  cases h with
  | ok hgood h => exact .ok hgood (h.trans hsuffix)
  | malformed reason position => exact .malformed reason position
  | tooManyDigits hcount h => exact .tooManyDigits hcount (h.of_suffix hsuffix)
  | tooDeep h => exact .tooDeep (Nat.lt_of_lt_of_le h (openings_le_of_suffix hsuffix))

/-- Inside an array or an object there is room for one less. -/
theorem Reads.inside {start : Cursor} {ch : Char} {chars : List Char} {x : Except Fault (α × Cursor)}
    (h : c.Reads room Good x) (hstart : start.rest = ch :: chars) (hopening : isOpening ch = true)
    (hsuffix : c.rest <:+ chars) : start.Reads (room + 1) Good x := by
  have hrest : c.rest <:+ start.rest := hsuffix.trans (hstart ▸ List.suffix_cons ch chars)
  cases h with
  | ok hgood h => exact .ok hgood (h.trans hrest)
  | malformed reason position => exact .malformed reason position
  | tooManyDigits hcount h => exact .tooManyDigits hcount (h.of_suffix hrest)
  | tooDeep h =>
    have hinside := openings_le_of_suffix hsuffix
    refine .tooDeep ?_
    rw [hstart, openings_cons hopening]
    omega

theorem Reads.bind {x : Except Fault (α × Cursor)} {f : α × Cursor → Except Fault (β × Cursor)}
    (hx : c.Reads room Good x)
    (hf : ∀ a (after : Cursor), Good a → after.rest <:+ c.rest → c.Reads room Better (f (a, after))) :
    c.Reads room Better (x >>= f) := by
  cases hx with
  | ok hgood h => exact hf _ _ hgood h
  | malformed reason position => exact .malformed reason position
  | tooManyDigits hcount h => exact .tooManyDigits hcount h
  | tooDeep h => exact .tooDeep h

theorem Reads.bind_congr {x : Except Fault (α × Cursor)} {f g : α × Cursor → Except Fault (β × Cursor)}
    (hx : c.Reads room Good x) (h : ∀ a (after : Cursor), after.rest <:+ c.rest → f (a, after) = g (a, after)) :
    (x >>= f) = (x >>= g) := by
  cases hx with
  | ok hgood hafter => exact h _ _ hafter
  | _ => rfl

theorem length_advance_lt {ch : Char} {chars : List Char} (h : c.rest = ch :: chars) (n : Nat) :
    (c.advance (n + 1)).rest.length < c.rest.length := by
  show (c.rest.drop (n + 1)).length < c.rest.length
  rw [List.length_drop, h, List.length_cons]
  omega

theorem stepOver_suffix {ch : Char} {chars : List Char} (h : c.rest = ch :: chars) :
    (c.advance 1).skipSpace.rest <:+ chars := by
  have hadvanced : (c.advance 1).rest = chars := congrArg (List.drop 1) h
  exact hadvanced ▸ skipSpace_suffix

theorem length_stepOver_lt {start : Cursor} (hstart : c.rest <:+ start.rest) {ch : Char} {chars : List Char}
    (h : c.rest = ch :: chars) : (c.advance 1).skipSpace.rest.length < start.rest.length := by
  have hshorter := length_advance_lt h 0
  exact Nat.lt_of_lt_of_le (Nat.lt_of_le_of_lt skipSpace_suffix.length_le hshorter) hstart.length_le

end Cursor

open Cursor

/-! ## Strings -/

theorem exists_malformed_of_readEscape {opening : Nat} {c : Cursor} {fault : Fault}
    (h : readEscape opening c = .error fault) : ∃ reason position, fault = .malformed reason position := by
  unfold readEscape at h
  repeat' split at h
  all_goals first
    | cases h
      exact ⟨_, _, rfl⟩
    | cases h

/-- What a string is does not matter here. -/
def AnyString (_ : String) : Prop := True

theorem reads_readChars (room opening fuel : Nat) (c : Cursor) (read : List Char) :
    c.Reads room AnyString (readChars opening fuel c read) := by
  induction fuel generalizing c read with
  | zero => exact .malformed _ _
  | succ fuel ih =>
    unfold readChars
    split
    · exact .malformed _ _
    · exact .ok trivial (advance_suffix 1)
    · split
      · exact (ih _ _).of_suffix (advance_suffix _)
      · rename_i fault hfault
        obtain ⟨reason, position, rfl⟩ := exists_malformed_of_readEscape hfault
        exact .malformed reason position
    · split
      · exact reads_fail _ _
      · exact (ih _ _).of_suffix (advance_suffix 1)

theorem reads_readString (room fuel : Nat) (c : Cursor) : c.Reads room AnyString (readString fuel c) :=
  (reads_readChars room c.position fuel (c.advance 1) []).of_suffix (advance_suffix 1)

/-! ## Numbers and names -/

theorem exponent?_suffix {c after : Cursor} {e : Int} (h : exponent? c = some (e, after)) : after.rest <:+ c.rest := by
  unfold exponent? at h
  split at h
  · split at h
    · dsimp only at h
      -- The sign, if there is one, only says where the digits begin.
      split at h
      all_goals
        split at h
        · cases h
        · obtain ⟨_, rfl⟩ := Prod.mk.inj (Option.some.inj h)
          exact digits_suffix.trans (advance_suffix _)
    · cases h
  · cases h

theorem fraction_suffix (c : Cursor) : (fraction c).2.rest <:+ c.rest := by
  unfold fraction
  split
  · split
    · exact digits_suffix.trans (advance_suffix 1)
    · exact List.suffix_rfl
  · exact List.suffix_rfl

theorem wholeDigits_suffix (c : Cursor) : (wholeDigits c).2.rest <:+ c.rest := by
  unfold wholeDigits
  split
  · exact advance_suffix 1
  · exact digits_suffix

theorem isDigit_of_mem_wholeDigits {c : Cursor} : ∀ d ∈ (wholeDigits c).1, d.isDigit = true := by
  unfold wholeDigits
  split
  · exact List.forall_mem_singleton.mpr rfl
  · exact List.all_eq_true.mp List.all_takeWhile

theorem hasDigits_wholeDigits (c : Cursor) : HasDigits c.rest (wholeDigits c).1.length := by
  refine ⟨_, rfl, isDigit_of_mem_wholeDigits, ?_⟩
  unfold wholeDigits
  split
  · rename_i rest hrest
    rw [hrest]
    exact List.prefix_iff_eq_append.mpr rfl |>.isInfix
  · exact (List.takeWhile_prefix _).isInfix

theorem foldl_digits_lt {values : List Nat} (h : ∀ d ∈ values, d ≤ 9) (n : Nat) :
    values.foldl (fun n d => 10 * n + d) n < (n + 1) * Number.powerOfTen values.length := by
  induction values generalizing n with
  | nil => simp
  | cons d values ih =>
    have hd : d ≤ 9 := h d List.mem_cons_self
    calc values.foldl (fun n d => 10 * n + d) (10 * n + d)
        < (10 * n + d + 1) * Number.powerOfTen values.length := ih (fun d hd => h d (List.mem_cons_of_mem _ hd)) _
      _ ≤ ((n + 1) * 10) * Number.powerOfTen values.length := Nat.mul_le_mul_right _ (by omega)
      _ = (n + 1) * Number.powerOfTen (values.length + 1) := by
        rw [Nat.mul_assoc, ← Number.powerOfTen_succ]

theorem natOfDigits_lt {ds : List Char} (h : ∀ d ∈ ds, d.isDigit = true) :
    natOfDigits ds < Number.powerOfTen ds.length := by
  have hvalues : ∀ d ∈ ds.map fun d => d.toNat - 0x30, d ≤ 9 := by
    intro value hvalue
    obtain ⟨d, hd, rfl⟩ := List.mem_map.mp hvalue
    have hle : d.toNat ≤ 0x39 := by
      have hdigit := h d hd
      simp only [Char.isDigit, Bool.and_eq_true, decide_eq_true_eq] at hdigit
      exact hdigit.2
    omega
  have hlt := foldl_digits_lt hvalues 0
  rwa [List.length_map, Nat.zero_add, Nat.one_mul] at hlt

theorem canBeTold_natOfDigits {ds : List Char} (h : ∀ d ∈ ds, d.isDigit = true)
    (hlength : ds.length ≤ Numeral.maxDigits) (negative : Bool) :
    Numeral.canBeTold (if negative then -(natOfDigits ds : Int) else natOfDigits ds) = true := by
  have habs : (if negative then -(natOfDigits ds : Int) else natOfDigits ds).natAbs = natOfDigits ds := by
    cases negative <;> simp
  rw [Numeral.canBeTold, habs]
  exact decide_eq_true (Nat.lt_of_lt_of_le (natOfDigits_lt h) (Number.powerOfTen_le hlength))

theorem reads_readNumber (room : Nat) (start : Cursor) (negative : Bool) (c : Cursor) :
    c.Reads room (Readable room) (readNumber start negative c) := by
  have hfraction := (fraction_suffix (wholeDigits c).2).trans (wholeDigits_suffix c)
  unfold readNumber
  dsimp only
  split
  · exact reads_fail _ _
  · split
    · rename_i hexponent
      exact .ok (bounded_double _) ((exponent?_suffix hexponent).trans hfraction)
    · split
      · split
        · rename_i hcount
          exact .tooManyDigits hcount (hasDigits_wholeDigits c)
        · rename_i hcount
          have htold := canBeTold_natOfDigits isDigit_of_mem_wholeDigits (Nat.le_of_not_lt hcount) negative
          exact .ok (bounded_int.mpr htold) hfraction
      · exact .ok (bounded_double _) hfraction

theorem reads_readScalar (room : Nat) (c : Cursor) : c.Reads room (Readable room) (readScalar c) := by
  unfold readScalar
  split
  · rename_i hfind
    exact .ok (bounded_of_mem_constants (List.mem_of_find?_eq_some hfind)) (advance_suffix _)
  · split
    · exact (reads_readNumber _ _ _ _).of_suffix (advance_suffix 1)
    · exact reads_readNumber _ _ _ _

/-! ## Values -/

section Values

variable {fuel : Nat} (hvalue : ∀ room c, Cursor.Reads c room (Readable room) (readValue room fuel c))
  (hitems : ∀ room c read, (∀ item ∈ read, Readable room item) →
    Cursor.Reads c room (Readable (room + 1)) (readItems room fuel c read))
  (hmembers : ∀ room c read, (∀ member ∈ read, Readable room member.2) →
    Cursor.Reads c room (Readable (room + 1)) (readMembers room fuel c read))

include hitems hmembers in
theorem reads_readValue_succ (room : Nat) (c : Cursor) : c.Reads room (Readable room) (readValue room (fuel + 1) c) := by
  unfold readValue
  split
  · exact (reads_readString room fuel c).bind fun s after _ hafter => .ok (bounded_string s) hafter
  · rename_i chars hrest
    split
    · exact .tooDeep (by rw [hrest, openings_cons rfl]; exact Nat.succ_pos _)
    · rename_i room
      have hinside := stepOver_suffix hrest
      dsimp only
      split
      · refine .ok (fun item hitem => absurd hitem List.not_mem_nil) ?_
        exact (advance_suffix 1).trans (skipSpace_suffix.trans (advance_suffix 1))
      · exact (hitems room _ [] fun item hitem => absurd hitem List.not_mem_nil).inside hrest rfl hinside
  · rename_i chars hrest
    split
    · exact .tooDeep (by rw [hrest, openings_cons rfl]; exact Nat.succ_pos _)
    · rename_i room
      have hinside := stepOver_suffix hrest
      dsimp only
      split
      · refine .ok (fun member hmember => absurd hmember List.not_mem_nil) ?_
        exact (advance_suffix 1).trans (skipSpace_suffix.trans (advance_suffix 1))
      · exact (hmembers room _ [] fun member hmember => absurd hmember List.not_mem_nil).inside hrest rfl hinside
  · exact reads_readScalar room c

include hvalue hitems in
theorem reads_readItems_succ (room : Nat) (c : Cursor) (read : List Json) (hread : ∀ item ∈ read, Readable room item) :
    c.Reads room (Readable (room + 1)) (readItems room (fuel + 1) c read) := by
  unfold readItems
  refine (hvalue room c).bind fun item after hitem hafter => ?_
  have hspace := skipSpace_suffix.trans hafter
  have hall : ∀ other ∈ item :: read, Readable room other := List.forall_mem_cons.mpr ⟨hitem, hread⟩
  dsimp only
  split
  · exact .ok (fun other hother => hall other (List.mem_reverse.mp hother)) ((advance_suffix 1).trans hspace)
  · exact (hitems room _ _ hall).of_suffix (skipSpace_suffix.trans ((advance_suffix 1).trans hspace))
  · exact reads_fail _ _

include hvalue hmembers in
theorem reads_readMembers_succ (room : Nat) (c : Cursor) (read : List (String × Json))
    (hread : ∀ member ∈ read, Readable room member.2) :
    c.Reads room (Readable (room + 1)) (readMembers room (fuel + 1) c read) := by
  unfold readMembers
  split
  · refine (reads_readString room fuel c).bind fun key colon _ hcolon => ?_
    have hcolon := skipSpace_suffix.trans hcolon
    dsimp only
    split
    · have hopened := skipSpace_suffix.trans ((advance_suffix 1).trans hcolon)
      refine ((hvalue room _).of_suffix hopened).bind fun value after hgood hafter => ?_
      have hspace := skipSpace_suffix.trans hafter
      have hall : ∀ member ∈ (key, value) :: read, Readable room member.2 :=
        List.forall_mem_cons.mpr ⟨hgood, hread⟩
      dsimp only
      split
      · refine .ok (bounded_ofMembers fun member hmember => ?_) ((advance_suffix 1).trans hspace)
        exact hall member (List.mem_reverse.mp hmember)
      · exact (hmembers room _ _ hall).of_suffix (skipSpace_suffix.trans ((advance_suffix 1).trans hspace))
      · exact reads_fail _ _
    · exact reads_fail _ _
  · exact reads_fail _ _

end Values

/-- A value, the items of an array or the members of an object are read from the text that they begin. -/
theorem reads_values (fuel : Nat) : (∀ room c, Cursor.Reads c room (Readable room) (readValue room fuel c)) ∧
    (∀ room c read, (∀ item ∈ read, Readable room item) →
      Cursor.Reads c room (Readable (room + 1)) (readItems room fuel c read)) ∧
    ∀ room c read, (∀ member ∈ read, Readable room member.2) →
      Cursor.Reads c room (Readable (room + 1)) (readMembers room fuel c read) := by
  induction fuel with
  | zero =>
    refine ⟨fun room c => ?_, fun room c read _ => ?_, fun room c read _ => ?_⟩
    · exact reads_fail _ _
    · exact reads_fail _ _
    · exact reads_fail _ _
  | succ fuel ih =>
    obtain ⟨hvalue, hitems, hmembers⟩ := ih
    refine ⟨?value, ?items, ?members⟩
    case value => exact reads_readValue_succ hitems hmembers
    case items => exact reads_readItems_succ hvalue hitems
    case members => exact reads_readMembers_succ hvalue hmembers

/-- What becomes of reading a whole text. -/
inductive ReadsText (nesting : Nat) (text : List Char) : Except Fault Json → Prop where
  | ok {j : Json} (h : Readable (nesting + 1) j) : ReadsText nesting text (.ok j)
  | malformed (reason : Reason) (position : Nat) : ReadsText nesting text (.error (.malformed reason position))
  | tooManyDigits {count : Nat} (hcount : Numeral.maxDigits < count) (h : HasDigits text count) :
      ReadsText nesting text (.error (.tooManyDigits count))
  | tooDeep {shape : Shape} (h : nesting + 1 < openings text) : ReadsText nesting text (.error (.tooDeep shape))

/-- A text is read as a value that keeps both limits, or it is malformed, or it has too many digits in a row, or it
opens too many arrays and objects. -/
theorem readsText (nesting : Nat) (text : List Char) : ReadsText nesting text (read nesting text) := by
  unfold read
  split
  · exact .malformed _ _
  · have hvalue := (reads_values (2 * text.length + 2)).1 (nesting + 1) (Cursor.ofText text).skipSpace
    have hreads : (Cursor.ofText text).Reads (nesting + 1) (Readable (nesting + 1)) _ :=
      hvalue.of_suffix skipSpace_suffix
    generalize readValue (nesting + 1) (2 * text.length + 2) (Cursor.ofText text).skipSpace = value at hreads ⊢
    cases hreads with
    | malformed reason position => exact .malformed reason position
    | tooManyDigits hcount hdigits => exact .tooManyDigits hcount hdigits
    | tooDeep hdeep => exact .tooDeep hdeep
    | ok hgood _ =>
      dsimp only [bind, Except.bind]
      split
      · exact .ok hgood
      · exact .malformed _ _

theorem readable_of_read {nesting : Nat} {text : List Char} {j : Json} (h : read nesting text = .ok j) :
    Readable (nesting + 1) j := by
  have hreads := readsText nesting text
  rw [h] at hreads
  cases hreads with
  | ok hgood => exact hgood

/-! ## Brackets -/

theorem readValue_brackets {room fuel count : Nat} (hcount : room < count) (hfuel : 2 * room < fuel) (position : Nat) :
    readValue room fuel ⟨position, List.replicate count '['⟩ = .error (.tooDeep .array) := by
  induction room generalizing fuel count position with
  | zero =>
    obtain ⟨count, rfl⟩ := Nat.exists_eq_add_of_lt hcount
    obtain ⟨fuel, rfl⟩ := Nat.exists_eq_add_of_lt hfuel
    simp only [Nat.zero_add, List.replicate_succ, readValue]
  | succ room ih =>
    obtain ⟨count, rfl⟩ : ∃ n, count = n + 2 := ⟨count - 2, by omega⟩
    obtain ⟨fuel, rfl⟩ : ∃ n, fuel = n + 2 := ⟨fuel - 2, by omega⟩
    have hinside := @ih fuel (count + 1) (by omega) (by omega) (position + 1)
    have hspace : (Cursor.advance ⟨position, List.replicate (count + 2) '['⟩ 1).skipSpace =
        ⟨position + 1, List.replicate (count + 1) '['⟩ := rfl
    rw [List.replicate_succ, readValue]
    rw [← List.replicate_succ, hspace]
    simp only [List.replicate_succ, readItems]
    rw [List.replicate_succ] at hinside
    rw [hinside]
    rfl

theorem read_brackets {nesting count : Nat} (h : nesting + 1 < count) :
    read nesting (List.replicate count '[') = .error (.tooDeep .array) := by
  obtain ⟨more, rfl⟩ : ∃ more, count = more + 1 := ⟨count - 1, by omega⟩
  have hvalue := @readValue_brackets _ (2 * (more + 1) + 2) _ h (by omega) 0
  have hspace : (Cursor.ofText (List.replicate (more + 1) '[')).skipSpace = ⟨0, List.replicate (more + 1) '['⟩ := rfl
  rw [read, hspace, List.length_replicate, hvalue]
  · rfl
  · intro rest hrest
    cases hrest

/-! ## Fuel -/

theorem readChars_add_one (opening : Nat) {fuel : Nat} {c : Cursor} (read : List Char)
    (h : c.rest.length ≤ fuel) : readChars opening (fuel + 1) c read = readChars opening fuel c read := by
  induction fuel generalizing c read with
  | zero =>
    have hend : c.rest = [] := List.eq_nil_of_length_eq_zero (Nat.le_zero.mp h)
    simp only [readChars, hend]
  | succ fuel ih =>
    cases hrest : c.rest with
    | nil => simp only [readChars, hrest]
    | cons ch chars =>
      have hshorter : ∀ n, (c.advance (n + 1)).rest.length ≤ fuel := fun n =>
        Nat.le_of_lt_succ (Nat.lt_of_lt_of_le (length_advance_lt hrest n) h)
      unfold readChars
      split
      · rfl
      · rfl
      · split
        · exact ih _ (hshorter _)
        · rfl
      · split
        · rfl
        · exact ih _ (hshorter 0)

theorem readString_add_one {fuel : Nat} {c : Cursor} (h : c.rest.length ≤ fuel) :
    readString (fuel + 1) c = readString fuel c :=
  readChars_add_one c.position [] (Nat.le_trans (advance_suffix 1).length_le h)

section Values

variable {fuel : Nat}
  (hvalue : ∀ room (c : Cursor), 2 * c.rest.length + 1 ≤ fuel → readValue room (fuel + 1) c = readValue room fuel c)
  (hitems : ∀ room (c : Cursor) read, 2 * c.rest.length + 2 ≤ fuel →
    readItems room (fuel + 1) c read = readItems room fuel c read)
  (hmembers : ∀ room (c : Cursor) read, 2 * c.rest.length + 2 ≤ fuel →
    readMembers room (fuel + 1) c read = readMembers room fuel c read)

include hitems hmembers in
theorem readValue_add_one_succ {room : Nat} {c : Cursor} (h : 2 * c.rest.length + 1 ≤ fuel + 1) :
    readValue room (fuel + 2) c = readValue room (fuel + 1) c := by
  unfold readValue
  split
  · rw [readString_add_one (by omega)]
  · rename_i hrest
    have hshorter := length_stepOver_lt List.suffix_rfl hrest
    split
    · rfl
    · dsimp only
      split
      · rfl
      · exact hitems _ _ _ (by omega)
  · rename_i hrest
    have hshorter := length_stepOver_lt List.suffix_rfl hrest
    split
    · rfl
    · dsimp only
      split
      · rfl
      · exact hmembers _ _ _ (by omega)
  · rfl

include hvalue hitems in
theorem readItems_add_one_succ {room : Nat} {c : Cursor} {read : List Json} (h : 2 * c.rest.length + 2 ≤ fuel + 1) :
    readItems room (fuel + 2) c read = readItems room (fuel + 1) c read := by
  unfold readItems
  rw [hvalue room c (by omega)]
  refine ((reads_values fuel).1 room c).bind_congr fun item after hafter => ?_
  dsimp only
  split
  · rfl
  · rename_i hrest
    have hshorter := length_stepOver_lt (skipSpace_suffix.trans hafter) hrest
    exact hitems _ _ _ (by omega)
  · rfl

include hvalue hmembers in
theorem readMembers_add_one_succ {room : Nat} {c : Cursor} {read : List (String × Json)}
    (h : 2 * c.rest.length + 2 ≤ fuel + 1) :
    readMembers room (fuel + 2) c read = readMembers room (fuel + 1) c read := by
  unfold readMembers
  split
  · rw [readString_add_one (by omega)]
    refine (reads_readString room fuel c).bind_congr fun key colon hcolon => ?_
    dsimp only
    split
    · rename_i hrest
      have hopened := length_stepOver_lt (skipSpace_suffix.trans hcolon) hrest
      rw [hvalue _ _ (by omega)]
      refine ((reads_values fuel).1 room _).bind_congr fun value after hafter => ?_
      dsimp only
      split
      · rfl
      · rename_i hrest
        have hshorter := length_stepOver_lt (skipSpace_suffix.trans hafter) hrest
        exact hmembers _ _ _ (by omega)
      · rfl
    · rfl
  · rfl

end Values

/-- More fuel changes nothing. Two units for each character are enough: one for the value that begins with it and one
for the list that the value is in. -/
theorem values_add_one (fuel : Nat) :
    (∀ room (c : Cursor), 2 * c.rest.length + 1 ≤ fuel → readValue room (fuel + 1) c = readValue room fuel c) ∧
    (∀ room (c : Cursor) read, 2 * c.rest.length + 2 ≤ fuel →
      readItems room (fuel + 1) c read = readItems room fuel c read) ∧
    ∀ room (c : Cursor) read, 2 * c.rest.length + 2 ≤ fuel →
      readMembers room (fuel + 1) c read = readMembers room fuel c read := by
  induction fuel with
  | zero =>
    refine ⟨fun room c h => ?_, fun room c read h => ?_, fun room c read h => ?_⟩
    all_goals omega
  | succ fuel ih =>
    obtain ⟨hvalue, hitems, hmembers⟩ := ih
    refine ⟨fun room c => ?value, fun room c read => ?items, fun room c read => ?members⟩
    case value => exact readValue_add_one_succ hitems hmembers
    case items => exact readItems_add_one_succ hvalue hitems
    case members => exact readMembers_add_one_succ hvalue hmembers

/-- The fuel with which a text is read is never used up: more of it changes nothing. -/
theorem readValue_ofText_of_le {room : Nat} {text : List Char} {fuel : Nat} (h : 2 * text.length + 2 ≤ fuel) :
    readValue room fuel (ofText text).skipSpace = readValue room (2 * text.length + 2) (ofText text).skipSpace := by
  have hlength : (ofText text).skipSpace.rest.length ≤ text.length := skipSpace_suffix.length_le
  induction h with
  | refl => rfl
  | step h ih =>
    have h : 2 * text.length + 2 ≤ _ := h
    rw [(values_add_one _).1 _ _ (by omega), ih]

end Json
end BranchingStory
