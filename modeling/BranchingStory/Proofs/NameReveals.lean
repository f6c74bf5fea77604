import BranchingStory.Story.Cast
import BranchingStory.Proofs.FlagEquality
import Mathlib.Data.List.Find

/-!
# The order in which names are revealed

Whoever speaks has a name. A character of the cast is at the first of its stages whose flag is raised, else at the
first that waits for no flag, else at the first of all; it goes by the label of that stage, or by the name it has
anyway where the label is missing or empty. The relation `AtStage` says this apart from the searches that find the
stage. All that it looks at are the flags that some stage waits for, and of these only whether they are raised, so
that nothing else that happens to the flags changes a name.
-/

namespace BranchingStory

/-! ## Raised flags -/

/-- No number but zero leaves a flag lowered, in whatever kind and with whatever sign it is written. -/
theorem Number.isSet_eq_false_iff {n : Number} : n.isSet = false ↔ n.toEReal? = some 0 := by
  cases n with
  | int n => simp [isSet, toEReal?]
  | double d =>
    cases d with
    | nan => simp [isSet, Double.isZero, toEReal?, Double.toEReal?]
    | infinite negative => cases negative <;> simp [isSet, Double.isZero, toEReal?, Double.toEReal?]
    | finite negative mantissa exponent canonical =>
      -- Neither the sign nor the scale is zero, so the number is zero together with its mantissa.
      have hsign : (if negative then -1 else 1 : ℝ) ≠ 0 := by cases negative <;> simp
      have hscale : (2 : ℝ) ^ ((exponent : ℤ) - Double.unitExponent) ≠ 0 := zpow_ne_zero _ two_ne_zero
      rw [toEReal?, Double.toEReal?, Option.some.injEq, EReal.coe_eq_zero, mul_eq_zero, or_iff_left hscale,
        mul_eq_zero, or_iff_right hsign, Nat.cast_eq_zero]
      simp [isSet, Double.isZero]

/-- The values that leave a flag lowered: null, false, zero and whatever is empty. -/
inductive Json.Unset : Json → Prop
  | null : Unset .null
  | bool : Unset (.bool false)
  | number {n : Number} : n.toEReal? = some 0 → Unset (.number n)
  | string : Unset (.string "")
  | array : Unset (.array [])
  | object : Unset (.object [])

theorem Json.isSet_eq_false_iff {j : Json} : j.isSet = false ↔ j.Unset := by
  constructor
  · intro h
    cases j with
    | null => exact .null
    | bool b =>
      obtain rfl : b = false := h
      exact .bool
    | number n => exact .number (Number.isSet_eq_false_iff.mp h)
    | string s =>
      obtain rfl : s = "" := by simpa [isSet] using h
      exact .string
    | array items =>
      obtain rfl : items = [] := by simpa [isSet] using h
      exact .array
    | object members =>
      obtain rfl : members = [] := by simpa [isSet] using h
      exact .object
  · intro h
    cases h with
    | number hzero => exact Number.isSet_eq_false_iff.mpr hzero
    | _ => rfl

namespace Flags

variable {flags : Flags} {flag : String}

/-- A flag is raised if it is there with a value that does not leave it lowered. -/
def Raised (flags : Flags) (flag : String) : Prop := ∃ value, Assoc.get? flags flag = some value ∧ ¬value.Unset

theorem isSet_iff_raised : flags.isSet flag = true ↔ flags.Raised flag := by
  rw [isSet, Option.any_eq_true, Raised]
  refine exists_congr fun value => and_congr_right fun _ => ?_
  rw [← Json.isSet_eq_false_iff, Bool.not_eq_false]

end Flags

/-! ## Stages -/

/-- Of the elements of a list that have a property, the first. -/
def IsFirst {α : Type} (P : α → Prop) (l : List α) (a : α) : Prop :=
  ∃ before after, l = before ++ a :: after ∧ P a ∧ ∀ b ∈ before, ¬P b

section

variable {α : Type} {p : α → Bool} {P : α → Prop} {l : List α} {a : α}

theorem find?_eq_some_iff_isFirst (hp : ∀ b, p b = true ↔ P b) : l.find? p = some a ↔ IsFirst P l a := by
  rw [List.find?_eq_some_iff_append, hp]
  constructor
  · rintro ⟨ha, before, after, hl, hbefore⟩
    exact ⟨before, after, hl, ha, fun b hb => by simpa [← hp] using hbefore b hb⟩
  · rintro ⟨before, after, hl, ha, hbefore⟩
    exact ⟨ha, before, after, hl, fun b hb => by simpa [← hp] using hbefore b hb⟩

theorem find?_eq_none_iff_forall (hp : ∀ b, p b = true ↔ P b) : l.find? p = none ↔ ∀ b ∈ l, ¬P b := by
  rw [List.find?_eq_none]
  exact forall₂_congr fun b _ => not_congr (hp b)

end

namespace NameState

/-- A stage waits for the flag that it names; an empty name is none. -/
def WaitsFor (stage : NameState) (flag : String) : Prop := stage.condition = some flag ∧ flag ≠ ""

def Revealed (flags : Flags) (stage : NameState) : Prop := ∃ flag, stage.WaitsFor flag ∧ flags.Raised flag

def IsOpen (stage : NameState) : Prop := ∀ flag, ¬stage.WaitsFor flag

theorem any_isSet_iff_revealed (flags : Flags) (stage : NameState) :
    (nonEmpty? stage.condition).any flags.isSet = true ↔ stage.Revealed flags := by
  rw [Option.any_eq_true]
  exact exists_congr fun flag => and_congr nonEmpty?_eq_some Flags.isSet_iff_raised

theorem isNone_iff_isOpen (stage : NameState) : (nonEmpty? stage.condition).isNone = true ↔ stage.IsOpen := by
  rw [Option.isNone_iff_eq_none, Option.eq_none_iff_forall_ne_some]
  exact forall_congr' fun flag => not_congr nonEmpty?_eq_some

end NameState

namespace Character

variable {c : Character} {flags held : Flags}

/-- The stage that the reveal of a name has come to. -/
inductive AtStage (c : Character) (flags : Flags) (stage : NameState) : Prop
  | revealed : IsFirst (·.Revealed flags) c.states stage → AtStage c flags stage
  | unconditional : (∀ other ∈ c.states, ¬other.Revealed flags) → IsFirst NameState.IsOpen c.states stage →
      AtStage c flags stage
  | opening : (∀ other ∈ c.states, ¬other.Revealed flags) → (∀ other ∈ c.states, ¬other.IsOpen) →
      c.states.head? = some stage → AtStage c flags stage

/-- Some stage of the character waits for the flag. -/
def WaitsFor (c : Character) (flag : String) : Prop := ∃ stage ∈ c.states, stage.WaitsFor flag

theorem stage?_eq_some_iff {stage : NameState} : c.stage? flags.isSet = some stage ↔ c.AtStage flags stage := by
  -- Each search says where its first hit stands, or that there is none.
  have hrevealed := find?_eq_some_iff_isFirst (l := c.states) (a := stage) (NameState.any_isSet_iff_revealed flags)
  have hnone := find?_eq_none_iff_forall (l := c.states) (NameState.any_isSet_iff_revealed flags)
  have hopen := find?_eq_some_iff_isFirst (l := c.states) (a := stage) NameState.isNone_iff_isOpen
  have hshut := find?_eq_none_iff_forall (l := c.states) NameState.isNone_iff_isOpen
  rw [stage?, Option.or_eq_some_iff, Option.or_eq_some_iff, hrevealed, hnone, hopen, hshut]
  constructor
  · rintro (h | ⟨hlowered, h | ⟨hwaiting, h⟩⟩)
    · exact .revealed h
    · exact .unconditional hlowered h
    · exact .opening hlowered hwaiting h
  · rintro (h | ⟨hlowered, h⟩ | ⟨hlowered, hwaiting, h⟩)
    · exact .inl h
    · exact .inr ⟨hlowered, .inl h⟩
    · exact .inr ⟨hlowered, .inr ⟨hwaiting, h⟩⟩

theorem stage?_eq_none_iff {isSet : String → Bool} : c.stage? isSet = none ↔ c.states = [] := by
  constructor
  · intro h
    obtain ⟨_, h⟩ := Option.or_eq_none_iff.mp h
    exact List.head?_eq_none_iff.mp (Option.or_eq_none_iff.mp h).2
  · intro h
    rw [stage?, h]
    rfl

theorem stage?_congr (h : ∀ flag, c.WaitsFor flag → (flags.Raised flag ↔ held.Raised flag)) :
    c.stage? flags.isSet = c.stage? held.isSet := by
  have hstage : ∀ stage ∈ c.states,
      (nonEmpty? stage.condition).any flags.isSet = (nonEmpty? stage.condition).any held.isSet := by
    intro stage hmem
    rw [Bool.eq_iff_iff, NameState.any_isSet_iff_revealed, NameState.any_isSet_iff_revealed]
    exact exists_congr fun flag => and_congr_right fun hwaits => h flag ⟨stage, hmem, hwaits⟩
  rw [stage?, stage?, List.find?_congr hstage]

end Character

/-! ## Names -/

/-- The first of the names that is there and not empty, and the placeholder if there is none. -/
inductive FirstName : List (Option String) → String → Prop
  | given {name : String} {rest : List (Option String)} : name ≠ "" → FirstName (some name :: rest) name
  | missing {name : String} {rest : List (Option String)} : FirstName rest name → FirstName (none :: rest) name
  | empty {name : String} {rest : List (Option String)} : FirstName rest name → FirstName (some "" :: rest) name
  | unknown : FirstName [] "???"

theorem nameOr_cons (candidate : Option String) (rest : List (Option String)) :
    nameOr (candidate :: rest) = (nonEmpty? candidate).getD (nameOr rest) := by
  rw [nameOr, List.findSome?_cons]
  cases nonEmpty? candidate <;> rfl

theorem firstName_nameOr (names : List (Option String)) : FirstName names (nameOr names) := by
  induction names with
  | nil => exact .unknown
  | cons candidate rest ih =>
    rw [nameOr_cons]
    cases hname : nonEmpty? candidate with
    | none =>
      rcases nonEmpty?_eq_none.mp hname with rfl | rfl
      · exact .missing ih
      · exact .empty ih
    | some name =>
      obtain ⟨rfl, hne⟩ := nonEmpty?_eq_some.mp hname
      exact .given hne

theorem nameOr_eq_iff {names : List (Option String)} {name : String} : nameOr names = name ↔ FirstName names name := by
  constructor
  · rintro rfl
    exact firstName_nameOr names
  · intro h
    induction h with
    | given hne => rw [nameOr_cons, nonEmpty?_eq_some.mpr ⟨rfl, hne⟩, Option.getD_some]
    | missing _ ih => rw [nameOr_cons, nonEmpty?_eq_none.mpr (.inl rfl), Option.getD_none, ih]
    | empty _ ih => rw [nameOr_cons, nonEmpty?_eq_none.mpr (.inr rfl), Option.getD_none, ih]
    | unknown => rfl

namespace Character

variable {c : Character} {flags held : Flags}

/-- The name that a character goes by: that of the stage it is at, and the one it has anyway if it has no stages or
the stage has no label. -/
inductive GoesBy (c : Character) (flags : Flags) (name : String) : Prop
  | staged {stage : NameState} : c.AtStage flags stage → FirstName [stage.label, c.name] name → GoesBy c flags name
  | plain : c.states = [] → FirstName [c.name] name → GoesBy c flags name

theorem shownName_eq_iff {name : String} : c.shownName flags.isSet = name ↔ c.GoesBy flags name := by
  unfold shownName
  cases hstage : c.stage? flags.isSet with
  | some stage =>
    have hat := stage?_eq_some_iff.mp hstage
    rw [nameOr_eq_iff]
    constructor
    · exact .staged hat
    · rintro (⟨hother, hname⟩ | ⟨hnil, _⟩)
      · obtain rfl := Option.some.inj (hstage.symm.trans (stage?_eq_some_iff.mpr hother))
        exact hname
      · exact absurd (hstage.symm.trans (stage?_eq_none_iff.mpr hnil)) (Option.some_ne_none stage)
  | none =>
    have hnil := stage?_eq_none_iff.mp hstage
    rw [nameOr_eq_iff]
    constructor
    · exact .plain hnil
    · rintro (⟨hat, _⟩ | ⟨_, hname⟩)
      · exact absurd ((stage?_eq_some_iff.mpr hat).symm.trans hstage) (Option.some_ne_none _)
      · exact hname

theorem shownName_ne_empty (c : Character) (isSet : String → Bool) : c.shownName isSet ≠ "" := by
  unfold shownName
  split <;> exact nameOr_ne_empty _

theorem shownName_congr (h : ∀ flag, c.WaitsFor flag → (flags.Raised flag ↔ held.Raised flag)) :
    c.shownName flags.isSet = c.shownName held.isSet := by
  rw [shownName, shownName, stage?_congr h]

end Character

namespace SpeakerRef

variable {ref : SpeakerRef} {cast : Cast} {c : Character} {isSet : String → Bool}

theorem identity_id : (ref.identity cast isSet).id = some ref.id := by
  unfold identity
  split
  · rfl
  · cases ref <;> rfl

theorem identity_name_ne_empty : (ref.identity cast isSet).name ≠ "" := by
  unfold identity
  split
  · exact Character.shownName_ne_empty _ _
  · cases ref with
    | named id => exact nameOr_ne_empty []
    | inline character => exact nameOr_ne_empty _

/-- A reference to somebody in the cast shows who that is, whatever else it carries, and nothing is told about it. -/
theorem resolve_of_get? (h : Assoc.get? cast ref.id = some c) :
    resolve (some ref) cast isSet = ⟨some ⟨some ref.id, c.shownName isSet, c.portrait⟩, []⟩ := by
  have hidentity : ref.identity cast isSet = ⟨some ref.id, c.shownName isSet, c.portrait⟩ := by
    unfold identity
    rw [h]
  have hnotices : ref.notices cast = [] := by
    cases ref with
    | named id =>
      have hknown : Assoc.get? cast id = some c := h
      simp [notices, Assoc.contains, hknown]
    | inline character => rfl
  rw [resolve, hidentity, hnotices]

/-- Whoever is referred to is shown under the id of the reference and a name that is not empty. A reference to
somebody in the cast and the bare id show the same, namely the name that the character goes by: at the first stage
in authored order whose flag is raised, else at the first that waits for no flag, else at the first of all. It
stays the same whatever happens to the flags, as long as those that a stage waits for are raised or lowered as
before. -/
theorem resolve_in_reveal_order (cast : Cast) (ref : SpeakerRef) (flags : Flags) :
    (∃ identity, (resolve (some ref) cast flags.isSet).value = some identity ∧
      identity.id = some ref.id ∧ identity.name ≠ "") ∧
    ∀ c, Assoc.get? cast ref.id = some c →
      resolve (some ref) cast flags.isSet = resolve (some (.named ref.id)) cast flags.isSet ∧
      (∀ identity, (resolve (some ref) cast flags.isSet).value = some identity ↔
        identity.id = some ref.id ∧ c.GoesBy flags identity.name ∧ identity.portrait = c.portrait) ∧
      ∀ held : Flags, (∀ flag, c.WaitsFor flag → (flags.Raised flag ↔ held.Raised flag)) →
        resolve (some ref) cast flags.isSet = resolve (some ref) cast held.isSet := by
  refine ⟨⟨_, rfl, identity_id, identity_name_ne_empty⟩, fun c hc => ⟨?same, ?name, ?flags⟩⟩
  case same =>
    have hnamed : Assoc.get? cast (named ref.id).id = some c := hc
    rw [resolve_of_get? hc, resolve_of_get? hnamed]
    rfl
  case name =>
    rintro ⟨id, name, portrait⟩
    rw [resolve_of_get? hc, Option.some.injEq, Identity.mk.injEq, Character.shownName_eq_iff, eq_comm (b := id),
      eq_comm (b := portrait)]
  case flags =>
    intro held hheld
    rw [resolve_of_get? hc, resolve_of_get? hc, Character.shownName_congr hheld]

/-- A visitor in a hood whose name gets known, or at least a title. The first stage that waits for no flag has an empty
label. -/
def visitor : Character :=
  { id := "visitor", name := some "Hooded Visitor", portrait := "hood.png"
    states :=
      [{ label := some "Iris", condition := some "introduced" },
       { label := some "The Warden", condition := some "titled" },
       { label := some "", condition := some "" },
       { label := some "Stranger" }] }

/-- With an introduction that is the negative zero and an empty title the visitor is as unknown as with no flags at
all, and goes by the base name even where somebody else is written out. -/
theorem visitor_resolved :
    let somebody : SpeakerRef := .inline { id := "visitor", name := some "Somebody" }
    let cast : Cast := [("visitor", visitor)]
    let flags : Flags := .ofValues [("introduced", .number (.double (.zero true))), ("titled", .text "")]
    Assoc.get? cast somebody.id = some visitor ∧
      (∀ flag, visitor.WaitsFor flag → (flags.Raised flag ↔ Flags.Raised [] flag)) ∧
      visitor.GoesBy flags "Hooded Visitor" ∧
      resolve (some somebody) cast flags.isSet = resolve (some (.named "visitor")) cast flags.isSet ∧
      resolve (some somebody) cast flags.isSet = resolve (some somebody) cast (Flags.isSet []) := by
  intro somebody cast flags
  have hflags : ∀ flag, visitor.WaitsFor flag → (flags.Raised flag ↔ Flags.Raised [] flag) := by
    rintro flag ⟨stage, hstage, hcondition, hne⟩
    rw [← Flags.isSet_iff_raised, ← Flags.isSet_iff_raised]
    simp only [visitor, List.mem_cons, List.not_mem_nil, or_false] at hstage
    -- Two stages wait for a flag each, one names the empty flag, and the last names none.
    rcases hstage with rfl | rfl | rfl | rfl <;> cases hcondition
    · decide
    · decide
    · exact absurd rfl hne
  obtain ⟨_, hknown⟩ := resolve_in_reveal_order cast somebody flags
  obtain ⟨hsame, hname, hagree⟩ := hknown visitor rfl
  obtain ⟨_, hgoes, _⟩ := (hname ⟨some "visitor", "Hooded Visitor", "hood.png"⟩).mp (by decide)
  exact ⟨rfl, hflags, hgoes, hsame, hagree [] hflags⟩

end SpeakerRef
end BranchingStory
