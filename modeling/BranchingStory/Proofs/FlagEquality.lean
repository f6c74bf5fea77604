import BranchingStory.Story.Flag
import Mathlib.Data.EReal.Basic
import Mathlib.Tactic.Common

/-!
# Equality of flags

Flags compare within one kind, and numbers by the number that they are: a whole number and a double are equal if and
only if they are the same extended real, and a NaN is none. So the comparison is an equality wherever it is reflexive,
and conditions cannot tell a flag from one that compares equal to it.
-/

namespace BranchingStory

/-! ## The number that a number is -/

/-- The extended real that a double is. -/
noncomputable def Double.toEReal? : Double → Option EReal
  | .nan => none
  | .infinite negative => some (if negative then ⊥ else ⊤)
  | .finite negative mantissa exponent _ =>
    some (((if negative then -1 else 1) * mantissa * 2 ^ ((exponent : ℤ) - unitExponent) : ℝ) : EReal)

namespace Number

noncomputable def toEReal? : Number → Option EReal
  | int n => some ((n : ℝ) : EReal)
  | double d => d.toEReal?

noncomputable def Value.toEReal? : Value → Option EReal
  | undefined => none
  | infinite negative => some (if negative then ⊥ else ⊤)
  | units count => some ((count / Double.unitsPerOne : ℝ) : EReal)

theorem unitsPerOne_ne_zero : (Double.unitsPerOne : ℝ) ≠ 0 := Nat.cast_ne_zero.mpr Double.unitsPerOne_pos.ne'

theorem unitCount_div_unitsPerOne (mantissa exponent : Nat) :
    (Double.unitCount mantissa exponent : ℝ) / Double.unitsPerOne =
      mantissa * 2 ^ ((exponent : ℤ) - Double.unitExponent) := by
  have hcount : (Double.unitCount mantissa exponent : ℝ) = mantissa * 2 ^ exponent := by
    rw [Double.unitCount, Nat.shiftLeft_eq]
    push_cast
    rfl
  have hone : (Double.unitsPerOne : ℝ) = 2 ^ Double.unitExponent := by
    rw [Double.unitsPerOne, Nat.one_shiftLeft]
    push_cast
    rfl
  rw [hcount, hone, mul_div_assoc, zpow_sub₀ two_ne_zero, zpow_natCast, zpow_natCast]

theorem toEReal?_value (a : Number) : a.value.toEReal? = a.toEReal? := by
  cases a with
  | int n =>
    have hcount : ((n * Double.unitsPerOne : ℤ) : ℝ) / Double.unitsPerOne = n := by
      push_cast
      exact mul_div_cancel_right₀ _ unitsPerOne_ne_zero
    rw [value, Value.toEReal?, toEReal?, hcount]
  | double d =>
    cases d with
    | nan => rfl
    | infinite negative => rfl
    | finite negative mantissa exponent canonical =>
      have hcount := unitCount_div_unitsPerOne mantissa exponent
      cases negative with
      | false => simp [value, Value.toEReal?, toEReal?, Double.toEReal?, hcount]
      | true => simp [value, Value.toEReal?, toEReal?, Double.toEReal?, neg_div, hcount]

/-- Different values are different numbers, apart from the one that is none. -/
theorem Value.toEReal?_injective {a b : Value} (h : a.toEReal? = b.toEReal?) : a = b := by
  have hscale := unitsPerOne_ne_zero
  cases a with
  | undefined => cases b <;> simp_all [toEReal?]
  | infinite negative =>
    cases b with
    | undefined => cases h
    | infinite other => cases negative <;> cases other <;> simp_all [toEReal?]
    | units count => cases negative <;> simp [toEReal?] at h
  | units count =>
    cases b with
    | undefined => cases h
    | infinite negative => cases negative <;> simp [toEReal?] at h
    | units other =>
      have hquotient : (count / Double.unitsPerOne : ℝ) = other / Double.unitsPerOne := by
        simpa only [toEReal?, Option.some.injEq, EReal.coe_eq_coe_iff] using h
      have hcount : (count : ℝ) = other := by
        rwa [div_left_inj' hscale] at hquotient
      rw [Int.cast_inj.mp hcount]

theorem Value.toEReal?_eq_none {a : Value} : a.toEReal? = none ↔ a = .undefined := by
  cases a <;> simp [toEReal?]

theorem equals_iff_value {a b : Number} : a.equals b = true ↔ a.value ≠ .undefined ∧ a.value = b.value := by
  simp [equals]

theorem equals_iff {a b : Number} : a.equals b = true ↔ ∃ x, a.toEReal? = some x ∧ b.toEReal? = some x := by
  rw [equals_iff_value, ← toEReal?_value, ← toEReal?_value, ne_eq, ← Value.toEReal?_eq_none]
  constructor
  · rintro ⟨hdefined, hvalue⟩
    obtain ⟨x, hx⟩ := Option.ne_none_iff_exists'.mp hdefined
    exact ⟨x, hx, hvalue ▸ hx⟩
  · rintro ⟨x, ha, hb⟩
    exact ⟨by simp [ha], Value.toEReal?_injective (ha.trans hb.symm)⟩

end Number

/-! ## What a flag value is -/

inductive FlagKind where
  | bool
  | text
  | number
deriving DecidableEq

/-- What flag values are compared as. -/
inductive FlagMeaning where
  | bool (b : Bool)
  | text (s : String)
  | number (x : EReal)

namespace FlagValue

def kind : FlagValue → FlagKind
  | bool _ => .bool
  | text _ => .text
  | number _ => .number

noncomputable def meaning? : FlagValue → Option FlagMeaning
  | bool b => some (.bool b)
  | text s => some (.text s)
  | number n => n.toEReal?.map .number

theorem meaning?_eq_none {a : FlagValue} : a.meaning? = none ↔ a = number (.double .nan) := by
  cases a with
  | bool b => simp [meaning?]
  | text s => simp [meaning?]
  | number n =>
    cases n with
    | int n => simp [meaning?, Number.toEReal?]
    | double d => cases d <;> simp [meaning?, Number.toEReal?, Double.toEReal?]

theorem equals_iff {a b : FlagValue} : a.equals b = true ↔ ∃ x, a.meaning? = some x ∧ b.meaning? = some x := by
  cases a <;> cases b
  case number.number m n =>
    rw [equals, Number.equals_iff]
    constructor
    · rintro ⟨x, hm, hn⟩
      exact ⟨.number x, by rw [meaning?, hm, Option.map_some], by rw [meaning?, hn, Option.map_some]⟩
    · rintro ⟨x, hm, hn⟩
      obtain ⟨y, hy, rfl⟩ := Option.map_eq_some_iff.mp hm
      obtain ⟨z, hz, heq⟩ := Option.map_eq_some_iff.mp hn
      obtain rfl := FlagMeaning.number.inj heq
      exact ⟨z, hy, hz⟩
  case bool.bool b c => simp [equals, meaning?, eq_comm (a := b)]
  case text.text s t => simp [equals, meaning?, eq_comm (a := s)]
  all_goals simp [equals, meaning?]

theorem equals_comm (a b : FlagValue) : a.equals b = b.equals a := by
  rw [Bool.eq_iff_iff, equals_iff, equals_iff]
  exact exists_congr fun x => and_comm

theorem equals_trans {a b c : FlagValue} (hab : a.equals b = true) (hbc : b.equals c = true) : a.equals c = true := by
  obtain ⟨x, ha, hb⟩ := equals_iff.mp hab
  obtain ⟨y, hb', hc⟩ := equals_iff.mp hbc
  obtain rfl := Option.some.inj (hb.symm.trans hb')
  exact equals_iff.mpr ⟨x, ha, hc⟩

theorem equals_self_iff {a : FlagValue} : a.equals a = true ↔ a ≠ number (.double .nan) := by
  rw [equals_iff, ne_eq, ← meaning?_eq_none, ← ne_eq, Option.ne_none_iff_exists']
  exact exists_congr fun x => and_self_iff

theorem kind_eq_of_equals {a b : FlagValue} (h : a.equals b = true) : a.kind = b.kind := by
  cases a <;> cases b <;> first | rfl | cases h

theorem equals_congr {a b : FlagValue} (h : a.equals b = true) (c : FlagValue) : a.equals c = b.equals c := by
  rw [Bool.eq_iff_iff]
  exact ⟨equals_trans (equals_comm a b ▸ h), equals_trans h⟩

end FlagValue

/-! ## Conditions -/

namespace Flags

variable {flags : Flags} {conditions : Conditions} {id : String} {v w : FlagValue}

/-- Conditions cannot tell a flag from one that compares equal to it. -/
theorem meet_insert_of_equals (hv : Assoc.get? flags id = some v.toJson) (hvw : v.equals w = true) :
    meet (Assoc.insert flags id w.toJson) conditions = meet flags conditions := by
  have hentry : ∀ entry ∈ conditions,
      ((Assoc.get? (Assoc.insert flags id w.toJson) entry.1).any fun value => value.equals entry.2.toJson) =
        (Assoc.get? flags entry.1).any fun value => value.equals entry.2.toJson := by
    intro entry _
    rw [Assoc.get?_insert]
    by_cases hid : id = entry.1
    · rw [if_pos hid, ← hid, hv, Option.any_some, Option.any_some, ← FlagValue.equals_eq_toJson_equals,
        ← FlagValue.equals_eq_toJson_equals, FlagValue.equals_congr hvw]
    · rw [if_neg hid]
  rw [meet, meet, Assoc.satisfies, Assoc.satisfies, Bool.eq_iff_iff, List.all_eq_true, List.all_eq_true]
  exact forall₂_congr fun entry hmem => by rw [hentry entry hmem]

theorem meet_of_missing {entry : String × FlagValue} (hentry : entry ∈ conditions)
    (h : Assoc.get? flags entry.1 = none) : flags.meet conditions = false := by
  rw [Bool.eq_false_iff]
  intro hmet
  obtain ⟨value, hvalue, _⟩ := meet_iff.mp hmet entry hentry
  exact absurd (h.symm.trans hvalue) (Option.some_ne_none value).symm

/-- The comparison of flags is symmetric and transitive, and reflexive except on a NaN. It relates no values of
different kinds; Booleans and texts compare equal if they are the same, and numbers if they are the same extended real,
however they are written. So conditions take no notice of a flag that is replaced by one that compares equal to it, and
are not met if a flag that they are about is missing. -/
theorem equals_sound_and_meet_respects :
    (∀ a b : FlagValue, a.equals b = b.equals a) ∧
    (∀ a b c : FlagValue, a.equals b = true → b.equals c = true → a.equals c = true) ∧
    (∀ a : FlagValue, a.equals a = true ↔ a ≠ .number (.double .nan)) ∧
    (∀ a b : FlagValue, a.equals b = true → a.kind = b.kind) ∧
    (∀ b c, (FlagValue.bool b).equals (.bool c) = true ↔ b = c) ∧
    (∀ s t, (FlagValue.text s).equals (.text t) = true ↔ s = t) ∧
    (∀ m n : Number, (FlagValue.number m).equals (.number n) = true ↔
      ∃ x, m.toEReal? = some x ∧ n.toEReal? = some x) ∧
    (∀ (flags : Flags) (conditions : Conditions) (id : String) (v w : FlagValue),
      Assoc.get? flags id = some v.toJson → v.equals w = true →
        meet (Assoc.insert flags id w.toJson) conditions = meet flags conditions) ∧
    ∀ (flags : Flags) (conditions : Conditions), ∀ entry ∈ conditions,
      Assoc.get? flags entry.1 = none → meet flags conditions = false := by
  refine ⟨FlagValue.equals_comm, fun a b c => FlagValue.equals_trans, fun a => FlagValue.equals_self_iff,
    fun a b => FlagValue.kind_eq_of_equals, fun b c => beq_iff_eq, fun s t => beq_iff_eq, fun m n => Number.equals_iff,
    fun flags conditions id v w => meet_insert_of_equals, fun flags conditions entry => meet_of_missing⟩

/-- The first whole number that has a neighbour no double is equal to. -/
def manySteps : Int := 9007199254740992

def manyStepsDouble : Double := .ofParts false fullMantissa 1075

/-- A door that opens after so many steps opens whichever way they were counted, one step more is another number, and
nobody comes through who has not counted. -/
theorem manySteps_compare :
    let counted : FlagValue := .number (.int manySteps)
    let measured : FlagValue := .number (.double manyStepsDouble)
    counted.equals measured = true ∧ measured.equals measured = true ∧ counted.kind = measured.kind ∧
      measured.equals (.number (.int (manySteps + 1))) = false ∧
      meet (Assoc.insert [("steps", counted.toJson)] "steps" measured.toJson) [("steps", counted)] = true ∧
      meet [] [("steps", counted)] = false := by
  intro counted measured
  obtain ⟨hcomm, htrans, _, hkind, _, _, _, hmeet, hmissing⟩ := equals_sound_and_meet_respects
  have hequal : counted.equals measured = true := by decide +kernel
  have hself : measured.equals measured = true := htrans _ _ _ (hcomm measured counted ▸ hequal) hequal
  refine ⟨hequal, hself, hkind _ _ hequal, by decide +kernel, ?_, hmissing _ _ _ List.mem_cons_self rfl⟩
  rw [hmeet _ _ _ counted measured rfl hequal]
  decide +kernel

end Flags
end BranchingStory
