import BranchingStory.Story.Node

/-!
# The graph of a story

Nodes stand in the order in which they were written. Those with a non-empty id can be reached by it;
of several nodes with one id the last is meant.
-/

namespace BranchingStory

structure Graph where
  nodes : List Node := []
  initialAmbience : Option Cue := none

namespace Graph

variable (g : Graph)

/-- The last node with the given id; the empty id names none. -/
def node? (id : String) : Option Node :=
  if id = "" then none else g.nodes.reverse.find? fun n => n.id == some id

def find? : Option String → Option Node
  | none => none
  | some id => g.node? id

def contains (id : String) : Bool := (g.node? id).isSome

/-- The node where a fresh session starts. -/
def entry : Option String := g.nodes.head?.bind Node.id

/-- The ids that name a node, each once, in the order of their first nodes. -/
def ids : List String := (g.nodes.filterMap fun n => nonEmpty? n.id).eraseDups

/-- How many nodes can be reached by id. -/
def size : Nat := g.ids.length

/-- The nodes that can be reached by id, with their ids. -/
def byId : Assoc Node := Assoc.ofPairs (g.nodes.filterMap fun n => (nonEmpty? n.id).map fun id => (id, n))

@[simp] theorem find?_none : g.find? none = none := rfl

@[simp] theorem find?_some (id : String) : g.find? (some id) = g.node? id := rfl

variable {g}

theorem mem_of_node? {id : String} {n : Node} (h : g.node? id = some n) : n ∈ g.nodes := by
  unfold node? at h
  split at h
  · simp at h
  · simpa using List.mem_of_find?_eq_some h

theorem id_of_node? {id : String} {n : Node} (h : g.node? id = some n) : n.id = some id := by
  unfold node? at h
  split at h
  · simp at h
  · simpa using List.find?_some h

theorem ne_empty_of_node? {id : String} {n : Node} (h : g.node? id = some n) : id ≠ "" := by
  rintro rfl
  simp [node?] at h

theorem mem_of_find? {id : Option String} {n : Node} (h : g.find? id = some n) : n ∈ g.nodes := by
  cases id with
  | none => simp at h
  | some id => exact mem_of_node? h

theorem id_of_find? {id : Option String} {n : Node} (h : g.find? id = some n) : n.id = id := by
  cases id with
  | none => simp at h
  | some id => exact id_of_node? h

theorem mem_ids_of_find? {id : Option String} {n : Node} (h : g.find? id = some n) :
    id ∈ g.ids.map some := by
  cases id with
  | none => simp at h
  | some id =>
    have hid : nonEmpty? n.id = some id := nonEmpty?_eq_some.mpr ⟨id_of_node? h, ne_empty_of_node? h⟩
    have hmem : id ∈ g.nodes.filterMap fun n => nonEmpty? n.id :=
      List.mem_filterMap.mpr ⟨n, mem_of_node? h, hid⟩
    exact List.mem_map_of_mem (List.mem_eraseDups.mpr hmem)

end Graph
end BranchingStory
