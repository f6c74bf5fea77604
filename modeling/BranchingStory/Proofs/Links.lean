import BranchingStory.Proofs.Orbit

/-!
# Where a walk can lead

A walk that leaves a node follows its links. It takes the first branch that leads anywhere; a plain
successor that may be shown ends it, and one that may not is passed. `ComesTo` says so without the ids
that a walk remembers. Two facts follow: whatever a walk comes to lies ahead along the links of the graph,
and it may be shown unless a branch leads to it. Searching for a node to show ends at one that may be shown.
-/

namespace BranchingStory

/-- What a node names as following it: its plain successor, the targets of its branches, and those of its
choices. -/
def Node.targets (n : Node) : List (Option String) :=
  n.next :: (n.branches.map Branch.next ++ n.choices.map Choice.next)

namespace Graph

variable (g : Graph) (flags : Flags)

/-- A link leads from a node that can be reached by its id to one that it names. -/
def Link (n m : Node) : Prop := g.find? n.id = some n ∧ ∃ target ∈ n.targets, g.find? target = some m

/-- The second node lies ahead of the first: one or more links lead there. -/
abbrev Ahead (n m : Node) : Prop := Relation.TransGen g.Link n m

/-- No node lies ahead of itself. -/
def Acyclic : Prop := ∀ n, ¬ g.Ahead n n

/-- A walk passes from a node to its plain successor if no branch leads anywhere and the successor may not
be shown. -/
def Passes (n gated : Node) : Prop :=
  n.branches.findSome? (g.branchNode? flags) = none ∧ g.find? n.next = some gated ∧
    gated.satisfiedBy flags = false

/-- A walk that leaves `n` ends at `m`. -/
inductive ComesTo : Node → Node → Prop
  | branch {n m : Node} : n.branches.findSome? (g.branchNode? flags) = some m → ComesTo n m
  | next {n m : Node} : g.find? n.next = some m → m.satisfiedBy flags = true → ComesTo n m
  | past {n gated m : Node} : g.Passes flags n gated → ComesTo gated m → ComesTo n m

variable {g flags}

/-! ## Links -/

theorem link_next {n m : Node} (hn : g.find? n.id = some n) (hm : g.find? n.next = some m) :
    g.Link n m := ⟨hn, n.next, List.mem_cons_self, hm⟩

theorem link_branch {n m : Node} {branch : Branch} (hn : g.find? n.id = some n)
    (hbranch : branch ∈ n.branches) (hm : g.find? branch.next = some m) : g.Link n m := by
  have hmem : branch.next ∈ n.branches.map Branch.next := List.mem_map_of_mem hbranch
  exact ⟨hn, branch.next, List.mem_cons_of_mem _ (List.mem_append_left _ hmem), hm⟩

theorem link_choice {n m : Node} {choice : Choice} (hn : g.find? n.id = some n)
    (hchoice : choice ∈ n.choices) (hm : g.find? choice.next = some m) : g.Link n m := by
  have hmem : choice.next ∈ n.choices.map Choice.next := List.mem_map_of_mem hchoice
  exact ⟨hn, choice.next, List.mem_cons_of_mem _ (List.mem_append_right _ hmem), hm⟩

/-- A numbering of the nodes that grows along every link leaves no room for a cycle. -/
theorem acyclic_of_rank (rank : Node → Nat) (hrank : ∀ n ∈ g.nodes, ∀ target ∈ n.targets,
    ((g.find? target).all fun m => decide (rank n < rank m)) = true) : g.Acyclic := by
  have hlink : ∀ {n m : Node}, g.Link n m → rank n < rank m := by
    rintro n m ⟨hn, target, htarget, hm⟩
    have hall := hrank n (mem_of_find? hn) target htarget
    rw [hm, Option.all_some] at hall
    exact of_decide_eq_true hall
  have hahead : ∀ {n m : Node}, g.Ahead n m → rank n < rank m := by
    intro n m h
    induction h with
    | single h => exact hlink h
    | tail _ h ih => exact Nat.lt_trans ih (hlink h)
  intro n h
  exact Nat.lt_irrefl _ (hahead h)

/-! ## Walks -/

theorem exists_branch_of_findSome? {branches : List Branch} {m : Node}
    (h : branches.findSome? (g.branchNode? flags) = some m) :
    ∃ branch ∈ branches, flags.meet branch.conditions = true ∧ g.find? branch.next = some m := by
  obtain ⟨branch, hbranch, hm⟩ := List.exists_of_findSome?_eq_some h
  unfold branchNode? at hm
  split at hm
  · rename_i hmeet
    exact ⟨branch, hbranch, hmeet, hm⟩
  · exact absurd hm.symm (Option.some_ne_none m)

/-- The ids that a walk remembers can only end it early: where it ends, it comes to without them. -/
theorem comesTo_of_next {n m : Node} {seen : Seen}
    (h : g.find? (g.next flags n seen).value.target = some m) : g.ComesTo flags n m := by
  fun_induction g.next flags n seen with
  | case1 n seen hmem => simp at h
  | case2 n seen hmem branched id hb =>
    obtain ⟨target, htarget, hfirst⟩ := (branchTarget_spec n.id n.branches).1 id hb
    obtain rfl : target = m := by simpa [htarget] using h
    exact .branch hfirst
  | case3 n seen hmem branched hb hnext => simp at h
  | case4 n seen hmem branched hb id hnext htarget => simp at h
  | case5 n seen hmem branched hb id hnext target htarget hs =>
    obtain rfl : target = m := by simpa [find?_id_of_node? htarget] using h
    exact .next ((find?_eq_node? hnext).trans htarget) hs
  | case6 n seen hmem branched hb id hnext target htarget hs rest ih =>
    have hnone := (branchTarget_spec n.id n.branches).2 hb
    exact .past ⟨hnone, (find?_eq_node? hnext).trans htarget, by simpa using hs⟩ (ih h)

theorem ComesTo.ahead {n m : Node} (h : g.ComesTo flags n m) (hn : g.find? n.id = some n) :
    g.Ahead n m := by
  induction h with
  | branch hfirst =>
    obtain ⟨branch, hbranch, _, hm⟩ := exists_branch_of_findSome? hfirst
    exact .single (link_branch hn hbranch hm)
  | next hm _ => exact .single (link_next hn hm)
  | past hpass _ ih => exact (ih (find?_id hpass.2.1)).head (link_next hn hpass.2.1)

/-- What a walk comes to may be shown, or else a branch leads there, from a node that the walk has passed to. -/
theorem ComesTo.satisfiedBy_or_branch {n m : Node} (h : g.ComesTo flags n m) :
    m.satisfiedBy flags = true ∨ ∃ source, Relation.ReflTransGen (g.Passes flags) n source ∧
      ∃ branch ∈ source.branches, flags.meet branch.conditions = true ∧ g.find? branch.next = some m := by
  induction h with
  | branch hfirst => exact .inr ⟨_, .refl, exists_branch_of_findSome? hfirst⟩
  | next _ hm => exact .inl hm
  | past hpass _ ih =>
    rcases ih with hm | ⟨source, hpasses, hbranch⟩
    · exact .inl hm
    · exact .inr ⟨source, hpasses.head hpass, hbranch⟩

/-! ## Searches -/

theorem satisfiedBy_of_renderable {n m : Node} {seen : Seen}
    (h : (g.renderable flags n seen).value = some m) : m.satisfiedBy flags = true := by
  fun_induction g.renderable flags n seen with
  | case1 n seen hs => exact Option.some.inj h ▸ hs
  | case2 n seen hs step hnone => simp at h
  | case3 n seen hs step target htarget rest ih => exact ih h

theorem satisfiedBy_of_renderableOf {n : Option Node} {m : Node}
    (h : (g.renderableOf flags n).value = some m) : m.satisfiedBy flags = true := by
  cases n with
  | none => simp [renderableOf] at h
  | some n => exact satisfiedBy_of_renderable h

theorem reflTransGen_of_renderable {n m : Node} {seen : Seen} (hn : g.find? n.id = some n)
    (h : (g.renderable flags n seen).value = some m) : Relation.ReflTransGen g.Link n m := by
  fun_induction g.renderable flags n seen with
  | case1 n seen hs => exact Option.some.inj h ▸ .refl
  | case2 n seen hs step hnone => simp at h
  | case3 n seen hs step target htarget rest ih =>
    have hahead : g.Ahead n target := (comesTo_of_next htarget).ahead hn
    exact hahead.to_reflTransGen.trans (ih (find?_id htarget) h)

theorem ahead_of_behind {n m : Node} (hn : g.find? n.id = some n)
    (h : (g.renderableOf flags (g.find? (g.nextOf flags (some n)).value)).value = some m) : g.Ahead n m := by
  cases htarget : g.find? (g.nextOf flags (some n)).value with
  | none => simp [htarget, renderableOf] at h
  | some target =>
    have hahead : g.Ahead n target := (comesTo_of_next htarget).ahead hn
    rw [htarget] at h
    exact hahead.trans_left (reflTransGen_of_renderable (find?_id htarget) h)

end Graph
end BranchingStory
