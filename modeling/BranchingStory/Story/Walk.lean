import BranchingStory.Story.Graph
import BranchingStory.Told

/-!
# Walking a graph

From a node the story goes on along the first branch whose conditions hold and whose target exists,
and otherwise along the plain successor. A successor whose own conditions fail is walked through. The
ids of the nodes a walk has been at are remembered, and a walk that comes back to one of them ends:
this is what bounds it, since every further step reaches a node of the graph that was not seen.
-/

namespace BranchingStory

/-- The ids that a walk has been at; a node without an id is remembered as such. -/
abbrev Seen := List (Option String)

/-- Where a walk leads, and the ids it has been at by then. -/
structure Walk where
  target : Option String
  seen : Seen
deriving DecidableEq

namespace Graph

variable (g : Graph)

/-- How many nodes of the graph a walk has not been at. -/
def unseen (seen : Seen) : Nat := g.nodes.countP fun n => !seen.contains n.id

/-- What bounds a walk that stands at a node: the nodes unseen from there on, and one more step if
the node itself has not been seen. -/
def budget (n : Node) (seen : Seen) : Nat :=
  g.unseen (n.id :: seen) + if seen.contains n.id then 0 else 1

theorem unseen_le {seen more : Seen} (h : ∀ id ∈ seen, id ∈ more) :
    g.unseen more ≤ g.unseen seen := by
  apply List.countP_mono_left
  intro n _ hn
  simp only [Bool.not_eq_true', List.contains_eq_mem, decide_eq_false_iff_not] at hn ⊢
  exact fun hs => hn (h _ hs)

theorem unseen_cons_lt {target : Node} {seen : Seen} (hmem : target ∈ g.nodes)
    (h : target.id ∉ seen) : g.unseen (target.id :: seen) < g.unseen seen := by
  have key : ∀ nodes : List Node, target ∈ nodes →
      nodes.countP (fun n => !(target.id :: seen).contains n.id) <
        nodes.countP (fun n => !seen.contains n.id) := by
    intro nodes hmem
    induction nodes with
    | nil => simp at hmem
    | cons n nodes ih =>
      have hle : nodes.countP (fun n => !(target.id :: seen).contains n.id) ≤
          nodes.countP (fun n => !seen.contains n.id) := by
        apply List.countP_mono_left
        intro m _ hm
        simp only [Bool.not_eq_true', List.contains_eq_mem, decide_eq_false_iff_not,
          List.mem_cons, not_or] at hm ⊢
        exact hm.2
      rw [List.countP_cons, List.countP_cons]
      rcases List.mem_cons.mp hmem with rfl | hmem
      · simp only [List.contains_eq_mem, List.mem_cons, true_or, decide_true, Bool.not_true,
          Bool.false_eq_true, if_false, h, decide_false, Bool.not_false, if_true] at hle ⊢
        omega
      · have := ih hmem
        have hhead : (if (!(target.id :: seen).contains n.id) = true then 1 else 0) ≤
            (if (!seen.contains n.id) = true then 1 else 0) := by
          by_cases hn : n.id ∈ seen <;> by_cases ht : n.id = target.id <;> simp [hn, ht]
        omega
  exact key g.nodes hmem

variable {g}

/-- A step from an unseen node to a node of the graph leaves a smaller budget. -/
theorem budget_lt {n target : Node} {seen more : Seen} (hmem : target ∈ g.nodes)
    (hn : n.id ∉ seen) (hmore : ∀ id ∈ n.id :: seen, id ∈ more) :
    g.budget target more < g.budget n seen := by
  have hle := g.unseen_le hmore
  simp only [budget, List.contains_eq_mem, hn, decide_false, Bool.false_eq_true, if_false]
  by_cases ht : target.id ∈ more
  · have hcons : ∀ id ∈ more, id ∈ target.id :: more := fun id h => List.mem_cons_of_mem _ h
    have := g.unseen_le hcons
    simp only [ht, decide_true, if_true]
    omega
  · have := g.unseen_cons_lt hmem ht
    simp only [ht, decide_false, Bool.false_eq_true, if_false]
    omega

variable (g)

/-- The target of the first branch whose conditions hold and whose target is in the graph; `source` is
the id of the node that the branches are on. -/
def branchTarget (flags : Flags) (source : Option String) : List Branch → Told (Option String)
  | [] => pure none
  | branch :: branches =>
    match nonEmpty? branch.next with
    | none => branchTarget flags source branches
    | some target =>
      if flags.meet branch.conditions then
        if g.contains target then pure (some target)
        else do
          Told.tell (.branchDangling source target)
          branchTarget flags source branches
      else branchTarget flags source branches

/-- The id of the node that follows `n`, or none at a dead end. -/
def next (flags : Flags) (n : Node) (seen : Seen) : Told Walk :=
  if n.id ∈ seen then ⟨⟨none, seen⟩, [.loopStopped n.id]⟩
  else
    let branched := g.branchTarget flags n.id n.branches
    match branched.value with
    | some target => ⟨⟨some target, n.id :: seen⟩, branched.notices⟩
    | none =>
      match nonEmpty? n.next with
      | none => ⟨⟨none, n.id :: seen⟩, branched.notices⟩
      | some id =>
        match ht : g.node? id with
        | none => ⟨⟨none, n.id :: seen⟩, branched.notices ++ [.nextDangling n.id id]⟩
        | some target =>
          if target.satisfiedBy flags then ⟨⟨target.id, n.id :: seen⟩, branched.notices⟩
          else
            let rest := next flags target (n.id :: seen)
            ⟨rest.value, branched.notices ++ rest.notices⟩
termination_by g.budget n seen
decreasing_by exact budget_lt (mem_of_node? ht) (by assumption) fun _ h => h

theorem seen_subset_next (flags : Flags) (n : Node) (seen : Seen) :
    ∀ id ∈ n.id :: seen, id ∈ (g.next flags n seen).value.seen := by
  fun_induction g.next flags n seen with
  | case1 n seen hn =>
    intro id h
    rcases List.mem_cons.mp h with rfl | h
    · exact hn
    · exact h
  | case6 n seen hn branched hb id hid target ht hs rest ih =>
    intro id h
    exact ih id (List.mem_cons_of_mem _ h)
  | _ => exact fun id h => h

theorem next_of_mem {flags : Flags} {n : Node} {seen : Seen} (h : n.id ∈ seen) :
    (g.next flags n seen).value.target = none := by
  rw [next]
  simp [h]

/-- The node itself if it may be shown, and otherwise the first node on its way that may. One memory
of seen ids serves the whole way, so a way that only leads through gated nodes ends. -/
def renderable (flags : Flags) (n : Node) (seen : Seen) : Told (Option Node) :=
  if n.satisfiedBy flags then pure (some n)
  else
    let step := g.next flags n seen
    match _ht : g.find? step.value.target with
    | none => ⟨none, step.notices⟩
    | some target =>
      let rest := renderable flags target step.value.seen
      ⟨rest.value, step.notices ++ rest.notices⟩
termination_by g.budget n seen
decreasing_by
  refine budget_lt (mem_of_find? _ht) ?_ (g.seen_subset_next flags n seen)
  intro hn
  have hnone : step.value.target = none := g.next_of_mem hn
  simp [hnone] at _ht

def nextOf (flags : Flags) (n : Option Node) : Told (Option String) :=
  match n with
  | none => pure none
  | some n => Walk.target <$> g.next flags n []

def renderableOf (flags : Flags) (n : Option Node) : Told (Option Node) :=
  match n with
  | none => pure none
  | some n => g.renderable flags n []

end Graph
end BranchingStory
