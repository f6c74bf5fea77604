import BranchingStory.Json.Basic

/-!
# Flags

A story remembers what happened in named flags. A flag holds a Boolean, a text or a number, and the
three kinds never compare equal: `true` is not `1`. Whole numbers and doubles are one kind and
compare by exact value.
-/

namespace BranchingStory

inductive FlagValue where
  | bool (b : Bool)
  | text (s : String)
  | number (n : Number)
deriving DecidableEq

namespace FlagValue

def toJson : FlagValue → Json
  | bool b => .bool b
  | text s => .string s
  | number n => .number n

def ofJson? : Json → Option FlagValue
  | .bool b => some (bool b)
  | .string s => some (text s)
  | .number n => some (number n)
  | _ => none

@[simp] theorem ofJson?_toJson (v : FlagValue) : ofJson? v.toJson = some v := by
  cases v <;> rfl

theorem toJson_of_ofJson? {j : Json} {v : FlagValue} (h : ofJson? j = some v) : v.toJson = j := by
  cases j <;> simp_all [ofJson?] <;> subst h <;> rfl

/-- Equality of flag values: within one kind, and for numbers by exact value. -/
def equals : FlagValue → FlagValue → Bool
  | bool a, bool b => a == b
  | text a, text b => a == b
  | number a, number b => a.equals b
  | _, _ => false

/-- Flag values compare just as the document values they are written as. -/
theorem equals_eq_toJson_equals (a b : FlagValue) : a.equals b = a.toJson.equals b.toJson := by
  cases a <;> cases b <;> simp [equals, toJson, Json.equals, Json.alike, Json.isNan, Json.asNumber?]

end FlagValue

/-- Values for flags, as a story declares or sets them. -/
abbrev FlagValues := Assoc FlagValue

/-- The flag values that something requires; nothing required is always met. -/
abbrev Conditions := Assoc FlagValue

/-- The flags that are held. A story holds nothing but flag values in them. Whoever hosts it may put in any
other document, which then meets no condition. -/
abbrev Flags := Assoc Json

/-- Whether every required name is present with a value that compares equal. -/
def Assoc.satisfies {α β : Type} (equals : α → β → Bool) (held : Assoc α) (required : Assoc β) : Bool :=
  required.all fun entry => (Assoc.get? held entry.1).any fun value => equals value entry.2

namespace Flags

def ofValues (values : FlagValues) : Flags := values.map fun entry => (entry.1, entry.2.toJson)

def setAll (flags : Flags) (values : FlagValues) : Flags := Assoc.overlay flags (ofValues values)

/-- Whether all conditions hold; a flag that is not there equals nothing. -/
def meet (flags : Flags) (conditions : Conditions) : Bool :=
  Assoc.satisfies (fun held required => held.equals required.toJson) flags conditions

/-- Whether a flag is there and set: not false, zero, null or empty. -/
def isSet (flags : Flags) (id : String) : Bool :=
  (Assoc.get? flags id).any Json.isSet

theorem get?_ofValues (values : FlagValues) (id : String) :
    Assoc.get? (ofValues values) id = (Assoc.get? values id).map FlagValue.toJson := by
  induction values with
  | nil => rfl
  | cons entry rest ih =>
    obtain ⟨name, value⟩ := entry
    by_cases h : name = id
    · simp [ofValues, Assoc.get?, h]
    · simpa [ofValues, Assoc.get?, h] using ih

@[simp] theorem meet_nil (flags : Flags) : flags.meet [] = true := rfl

theorem meet_iff {flags : Flags} {conditions : Conditions} :
    flags.meet conditions = true ↔ ∀ entry ∈ conditions, ∃ value,
      Assoc.get? flags entry.1 = some value ∧ value.equals entry.2.toJson = true := by
  simp only [meet, Assoc.satisfies, List.all_eq_true, Option.any_eq_true]

end Flags
end BranchingStory
