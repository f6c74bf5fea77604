/-!
# Insertion-ordered maps

Documents, flags and tables of definitions are maps from names to values whose order is the order in
which the names first appeared. Writing to a name that is present changes its value and keeps its
place. All equations below hold for every list of pairs, whether or not its names are distinct: a
lookup sees the first pair with its name, and a write changes that pair.
-/

namespace BranchingStory

/-- Named values in the order in which the names first appeared. -/
abbrev Assoc (α : Type) := List (String × α)

namespace Assoc

variable {α β : Type}

def get? : Assoc α → String → Option α
  | [], _ => none
  | (name, value) :: rest, key => if name = key then some value else get? rest key

def contains (m : Assoc α) (key : String) : Bool := (get? m key).isSome

def keys (m : Assoc α) : List String := m.map Prod.fst

def values (m : Assoc α) : List α := m.map Prod.snd

/-- Write a value; a new name goes to the end. -/
def insert : Assoc α → String → α → Assoc α
  | [], key, value => [(key, value)]
  | (name, old) :: rest, key, value =>
    if name = key then (name, value) :: rest else (name, old) :: insert rest key value

/-- Write all values of `new` in order. -/
def overlay (m new : Assoc α) : Assoc α :=
  new.foldl (fun m entry => insert m entry.1 entry.2) m

/-- The map of a list of pairs in which a later pair overrides an earlier one. -/
def ofPairs (pairs : List (String × α)) : Assoc α := overlay [] pairs

def erase (m : Assoc α) (key : String) : Assoc α := m.filter (·.1 != key)

def insertSorted (entry : String × α) : Assoc α → Assoc α
  | [] => [entry]
  | first :: rest => if entry.1 ≤ first.1 then entry :: first :: rest else first :: insertSorted entry rest

/-- The pairs sorted by name, code point by code point. -/
def sorted (m : Assoc α) : Assoc α := m.foldr insertSorted []

@[simp] theorem get?_nil (key : String) : get? ([] : Assoc α) key = none := rfl

theorem get?_insert (m : Assoc α) (key other : String) (value : α) :
    get? (insert m key value) other = if key = other then some value else get? m other := by
  induction m with
  | nil => simp [insert, get?]
  | cons entry rest ih =>
    obtain ⟨name, old⟩ := entry
    by_cases h : name = key
    · subst h
      by_cases ho : name = other <;> simp [insert, get?, ho]
    · by_cases ho : name = other
      · subst ho
        simp [insert, get?, h, Ne.symm h]
      · simp [insert, get?, h, ho, ih]

@[simp] theorem insert_get? {m : Assoc α} {key : String} {value : α} (h : get? m key = some value) :
    insert m key value = m := by
  induction m with
  | nil => simp at h
  | cons entry rest ih =>
    obtain ⟨name, old⟩ := entry
    by_cases hn : name = key
    · simp_all [insert, get?]
    · simp_all [insert, get?]

end Assoc
end BranchingStory
