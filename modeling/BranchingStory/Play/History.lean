import BranchingStory.Play.Block

/-!
# Position and history

Where a play stands and what it last showed. The history keeps the latest blocks up to a bound;
every operation that adds blocks drops the oldest ones beyond it.
-/

namespace BranchingStory

/-- The last `bound` items of a list. -/
def latest {α : Type} (bound : Nat) (items : List α) : List α := items.drop (items.length - bound)

theorem length_latest_le {α : Type} (bound : Nat) (items : List α) :
    (latest bound items).length ≤ bound := by
  simp only [latest, List.length_drop]
  omega

theorem latest_eq_self {α : Type} {bound : Nat} {items : List α} (h : items.length ≤ bound) :
    latest bound items = items := by
  simp [latest, Nat.sub_eq_zero_of_le h]

/-- Dropping old items early makes no difference later, as long as enough of them are kept to fill up
what the new ones leave. -/
theorem latest_append_latest_of_le {α : Type} {bound kept : Nat} (old new : List α)
    (h : bound ≤ kept + new.length) : latest bound (latest kept old ++ new) = latest bound (old ++ new) := by
  rcases Nat.le_total old.length kept with hle | hle
  · rw [latest_eq_self hle]
  · have hdrop : latest kept old ++ new = (old ++ new).drop (old.length - kept) := by
      rw [latest, List.drop_append_of_le_length (by omega)]
    rw [hdrop]
    simp only [latest, List.length_append, List.length_drop, List.drop_drop]
    congr 1
    omega

theorem latest_append_latest {α : Type} (bound : Nat) (old new : List α) :
    latest bound (latest bound old ++ new) = latest bound (old ++ new) :=
  latest_append_latest_of_le old new (Nat.le_add_right bound new.length)

theorem latest_latest {α : Type} {small large : Nat} (h : small ≤ large) (items : List α) :
    latest small (latest large items) = latest small items := by
  have happend : latest small (latest large items ++ []) = latest small (items ++ []) :=
    latest_append_latest_of_le items [] (by simpa using h)
  rwa [List.append_nil, List.append_nil] at happend

theorem latest_append_of_le {α : Type} {bound : Nat} (old : List α) {new : List α} (h : bound ≤ new.length) :
    latest bound (old ++ new) = latest bound new := by
  have hlength : (old ++ new).length - bound = old.length + (new.length - bound) := by
    rw [List.length_append]
    omega
  rw [latest, hlength, List.drop_length_add_append, latest]

theorem latest_append_singleton {α : Type} {bound : Nat} (items : List α) (last : α) (h : 1 ≤ bound) :
    latest bound (items ++ [last]) = latest (bound - 1) items ++ [last] := by
  have hlength : (items ++ [last]).length - bound = items.length - (bound - 1) := by
    rw [List.length_append, List.length_singleton]
    omega
  rw [latest, hlength, List.drop_append_of_le_length (Nat.sub_le _ _), latest]

theorem mem_latest_concat {α : Type} {bound : Nat} {items : List α} {last : α} (h : 1 ≤ bound) :
    last ∈ latest bound (items ++ [last]) := by
  rw [latest_append_singleton items last h]
  exact List.mem_append_right _ List.mem_cons_self

theorem mem_of_mem_latest {α : Type} {bound : Nat} {items : List α} {item : α}
    (h : item ∈ latest bound items) : item ∈ items := List.mem_of_mem_drop h

theorem mem_of_mem_dropLast_latest {α : Type} {bound : Nat} {items : List α} {item : α}
    (h : item ∈ (latest bound items).dropLast) : item ∈ items.dropLast := by
  rw [latest, List.dropLast_eq_take, List.length_drop, Nat.sub_right_comm, ← List.drop_take,
    ← List.dropLast_eq_take] at h
  exact List.mem_of_mem_drop h

theorem latest_map {α β : Type} (f : α → β) (bound : Nat) (items : List α) :
    latest bound (items.map f) = (latest bound items).map f := by
  rw [latest, latest, List.length_map, List.map_drop]

def defaultBound : Int := 10

structure History where
  current : Option String
  blocks : List Block := []
  waiting : Bool := false
  bound : Nat

namespace History

/-- A history has to keep at least one block. -/
def boundMessage : String := "max_rendered_blocks must be at least 1."

/-- A history within its bound, unless that is less than one. -/
def make? (current : Option String) (blocks : List Block) (waiting : Bool) (bound : Int) :
    Option History :=
  if bound < 1 then none
  else some { current, blocks := latest bound.toNat blocks, waiting, bound := bound.toNat }

/-- Without a position the story has ended. -/
def isEnded (h : History) : Bool := h.current.isNone

/-- Whether a block with this id is in the history; a missing or empty id never is. -/
def hasShown (h : History) (id : Option String) : Bool :=
  match nonEmpty? id with
  | none => false
  | some id => h.blocks.any fun b => b.id == some id

/-- Add blocks in order and drop the oldest beyond the bound. -/
def append (h : History) (blocks : List Block) : History :=
  { h with blocks := latest h.bound (h.blocks ++ blocks) }

/-- Drop the earliest block with this id, if there is one. -/
def removeFirst (h : History) (id : Option String) : History :=
  match nonEmpty? id with
  | none => h
  | some id => { h with blocks := h.blocks.eraseP fun b => b.id == some id }

/-- The end of the story. -/
def ended (h : History) : History := { h with current := none, waiting := false }

end History
end BranchingStory
