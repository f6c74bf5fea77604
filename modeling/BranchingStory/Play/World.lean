import BranchingStory.Play.Collection

/-!
# The world of a story

What a story has changed: its flags, the items held and the notes unlocked. A node's effects are
carried out items first, then notes, then flags.
-/

namespace BranchingStory

structure World where
  defaults : Flags := []
  flags : Flags := []
  items : Collection
  notes : Collection

namespace World

/-- The notices of setting flags, one for each. -/
def settingNotices (effects : FlagValues) : List Notice :=
  effects.map fun entry => .flagSet entry.1 entry.2

def applyEffects (w : World) (effects : FlagValues) : Told World :=
  ⟨{ w with flags := w.flags.setAll effects }, settingNotices effects⟩

def apply (w : World) (n : Node) : Told World := do
  let added ← w.items.addAll n.itemsAdded
  let notes ← w.notes.addAll n.notesAdded
  { w with items := added.removeAll n.itemsRemoved, notes }.applyEffects n.effects

def applyAll (w : World) : List Node → Told World
  | [] => pure w
  | n :: ns => do
    let w ← w.apply n
    applyAll w ns

def applyOption (w : World) (n : Option Node) : Told World := w.applyAll n.toList

def setFlag (w : World) (id : String) (value : Json) : World :=
  { w with flags := Assoc.insert w.flags id value }

/-- Every flag back to its default. -/
def resetFlags (w : World) : World := { w with flags := w.defaults }

/-- A world with the given flags, items and notes; the flags become the defaults as well. -/
def make (flags : Flags) (items held notes unlocked : List String) : Told World := do
  let items ← Collection.make .items items held
  let notes ← Collection.make .notes notes unlocked
  return { defaults := flags, flags, items, notes }

end World
end BranchingStory
