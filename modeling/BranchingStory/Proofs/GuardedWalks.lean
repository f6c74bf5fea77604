import BranchingStory.Proofs.Links
import Mathlib.Data.List.Nodup
import Mathlib.Data.List.Perm.Subperm

/-!
# What the guard of a walk does

A walk goes along the chain of gated successors. The first node on it with a branch that leads anywhere ends the walk
at that branch's target, and without such a node the walk ends at the first successor that may be shown, if the chain
ends in one. The guard only truncates this: a walk with more ids to stay away from goes no further, and if it ends
anywhere, it ends where the others do. A walk that starts with no memory is not even truncated, because the guard then
stops it only on a chain that runs in a circle.
-/

namespace BranchingStory
namespace Graph

variable (g : Graph) (flags : Flags)

/-- The target of the first branch that leads anywhere. -/
abbrev branchedTo? (n : Node) : Option Node := n.branches.findSome? (g.branchNode? flags)

/-- The plain successor, if it may not be shown. -/
def gatedNext? (n : Node) : Option Node := (g.find? n.next).filter fun next => !next.satisfiedBy flags

/-- The chain of gated successors. -/
def gatedChain (start : Node) : Nat → Option Node
  | 0 => some start
  | k + 1 => (gatedChain start k).bind (g.gatedNext? flags)

/-- No node of the chain before the given one has a branch that leads anywhere. -/
def UnbranchedBefore (start : Node) (k : Nat) : Prop :=
  ∀ j < k, ∀ n, g.gatedChain flags start j = some n → g.branchedTo? flags n = none

/-- No node of the chain has a branch that leads anywhere. -/
def Unbranched (start : Node) : Prop := ∀ k, g.UnbranchedBefore flags start k

/-- Without a guard a walk leads to where the first branch of the chain leads, and if there is none, to the successor
behind the chain that may be shown. -/
def LeadsTo (start m : Node) : Prop :=
  (∃ k n, g.gatedChain flags start k = some n ∧ g.branchedTo? flags n = some m ∧ g.UnbranchedBefore flags start k) ∨
    g.Unbranched flags start ∧
      ∃ k n, g.gatedChain flags start k = some n ∧ g.find? n.next = some m ∧ m.satisfiedBy flags = true

/-- A walk with some ids to stay away from walks through the node after so many steps: no branch has led away before,
and neither this node nor one before it has one of the ids or the id of an earlier node. -/
structure WalksThrough (seen : Seen) (start : Node) (k : Nat) (n : Node) : Prop where
  reached : g.gatedChain flags start k = some n
  unbranched : g.UnbranchedBefore flags start k
  fresh : ∀ j ≤ k, ∀ m, g.gatedChain flags start j = some m → m.id ∉ seen
  apart : ∀ j ≤ k, ∀ m, g.gatedChain flags start j = some m →
    ∀ i < j, ∀ earlier, g.gatedChain flags start i = some earlier → earlier.id ≠ m.id

/-- A guarded walk from a node, with the ids it remembers, and what it comes to. -/
inductive Walks : Seen → Node → Walk → Prop
  | stopped {seen : Seen} {n : Node} : n.id ∈ seen → Walks seen n ⟨none, seen⟩
  | branch {seen : Seen} {n m : Node} : n.id ∉ seen → g.branchedTo? flags n = some m →
      Walks seen n ⟨m.id, n.id :: seen⟩
  | dead {seen : Seen} {n : Node} : n.id ∉ seen → g.branchedTo? flags n = none → g.find? n.next = none →
      Walks seen n ⟨none, n.id :: seen⟩
  | next {seen : Seen} {n m : Node} : n.id ∉ seen → g.branchedTo? flags n = none → g.find? n.next = some m →
      m.satisfiedBy flags = true → Walks seen n ⟨m.id, n.id :: seen⟩
  | past {seen : Seen} {n gated : Node} {w : Walk} : n.id ∉ seen → g.Passes flags n gated →
      Walks (n.id :: seen) gated w → Walks seen n w

variable {g flags}

/-! ## The walk as a relation -/

theorem walks_next (n : Node) (seen : Seen) : g.Walks flags seen n (g.next flags n seen).value := by
  fun_induction g.next flags n seen with
  | case1 n seen hmem => exact .stopped hmem
  | case2 n seen hmem branched id hb =>
    obtain ⟨target, htarget, hfirst⟩ := (branchTarget_spec n.id n.branches).1 id hb
    show g.Walks flags seen n ⟨some id, n.id :: seen⟩
    rw [← id_of_node? htarget]
    exact .branch hmem hfirst
  | case3 n seen hmem branched hb hnext =>
    exact .dead hmem ((branchTarget_spec n.id n.branches).2 hb) (find?_of_nonEmpty?_none hnext)
  | case4 n seen hmem branched hb id hnext htarget =>
    exact .dead hmem ((branchTarget_spec n.id n.branches).2 hb) ((find?_eq_node? hnext).trans htarget)
  | case5 n seen hmem branched hb id hnext target htarget hs =>
    exact .next hmem ((branchTarget_spec n.id n.branches).2 hb) ((find?_eq_node? hnext).trans htarget) hs
  | case6 n seen hmem branched hb id hnext target htarget hs rest ih =>
    have hpass : g.Passes flags n target :=
      ⟨(branchTarget_spec n.id n.branches).2 hb, (find?_eq_node? hnext).trans htarget, by simpa using hs⟩
    exact .past hmem hpass ih

theorem Walks.unique {seen : Seen} {n : Node} {w other : Walk} (h : g.Walks flags seen n w)
    (hother : g.Walks flags seen n other) : w = other := by
  induction h with
  | stopped hmem => cases hother <;> first | rfl | contradiction
  | branch hfresh hbranch => cases hother <;> simp_all [Passes]
  | dead hfresh hnone hdead => cases hother <;> simp_all [Passes]
  | next hfresh hnone hm hs => cases hother <;> simp_all [Passes]
  | past hfresh hpass _ ih =>
    cases hother
    case past hpass' _ hrest =>
      obtain rfl := Option.some.inj (hpass.2.1.symm.trans hpass'.2.1)
      exact ih hrest
    all_goals simp_all [Passes]

/-! ## The chain -/

theorem gatedNext?_eq_some {n m : Node} :
    g.gatedNext? flags n = some m ↔ g.find? n.next = some m ∧ m.satisfiedBy flags = false := by
  simp [gatedNext?, Option.filter_eq_some_iff]

theorem passes_iff {n gated : Node} :
    g.Passes flags n gated ↔ g.branchedTo? flags n = none ∧ g.gatedNext? flags n = some gated :=
  and_congr_right fun _ => gatedNext?_eq_some.symm

theorem gatedNext?_of_dead {n : Node} (h : g.find? n.next = none) : g.gatedNext? flags n = none := by
  simp [gatedNext?, h]

theorem gatedNext?_of_satisfiedBy {n m : Node} (h : g.find? n.next = some m) (hm : m.satisfiedBy flags = true) :
    g.gatedNext? flags n = none := by
  simp [gatedNext?, h, hm]

theorem gatedChain_succ (start : Node) (k : Nat) : g.gatedChain flags start (k + 1) =
    (g.gatedNext? flags start).bind fun next => g.gatedChain flags next k := by
  induction k with
  | zero => cases h : g.gatedNext? flags start <;> simp [gatedChain, h]
  | succ k ih =>
    rw [gatedChain, ih]
    cases h : g.gatedNext? flags start <;> simp [gatedChain]

theorem gatedChain_of_passes {n gated : Node} (h : g.Passes flags n gated) (k : Nat) :
    g.gatedChain flags n (k + 1) = g.gatedChain flags gated k := by
  rw [gatedChain_succ, (passes_iff.mp h).2, Option.bind_some]

theorem unbranchedBefore_zero (start : Node) : g.UnbranchedBefore flags start 0 :=
  fun j hj => absurd hj (Nat.not_lt_zero j)

theorem unbranchedBefore_of_passes {n gated : Node} (h : g.Passes flags n gated) (k : Nat) :
    g.UnbranchedBefore flags n (k + 1) ↔ g.UnbranchedBefore flags gated k := by
  constructor
  · intro hn j hj m hm
    exact hn (j + 1) (Nat.succ_lt_succ hj) m ((gatedChain_of_passes h j).trans hm)
  · intro hgated j hj m hm
    cases j with
    | zero => exact Option.some.inj hm ▸ h.1
    | succ j => exact hgated j (Nat.lt_of_succ_lt_succ hj) m ((gatedChain_of_passes h j).symm.trans hm)

theorem find?_id_of_gatedChain {start m : Node} {k : Nat} (h : g.gatedChain flags start (k + 1) = some m) :
    g.find? m.id = some m := by
  obtain ⟨n, _, hnext⟩ := Option.bind_eq_some_iff.mp h
  exact find?_id (gatedNext?_eq_some.mp hnext).1

theorem alone_of_gatedChain {start m : Node} (hstart : g.Alone start) {k : Nat}
    (h : g.gatedChain flags start k = some m) : g.Alone m := by
  cases k with
  | zero => exact Option.some.inj h ▸ hstart
  | succ k => exact alone_of_find? (find?_id_of_gatedChain h)

theorem exists_gatedChain_of_le {start m : Node} {j k : Nat} (h : g.gatedChain flags start k = some m) (hjk : j ≤ k) :
    ∃ n, g.gatedChain flags start j = some n := by
  induction k generalizing m with
  | zero => exact ⟨m, Nat.le_zero.mp hjk ▸ h⟩
  | succ k ih =>
    rcases Nat.lt_or_eq_of_le hjk with hlt | rfl
    · obtain ⟨n, hn, _⟩ := Option.bind_eq_some_iff.mp h
      exact ih hn (Nat.le_of_lt_succ hlt)
    · exact ⟨m, h⟩

theorem le_of_gatedNext?_eq_none {start n m : Node} {j k : Nat} (hn : g.gatedChain flags start k = some n)
    (hend : g.gatedNext? flags n = none) (hm : g.gatedChain flags start j = some m) : j ≤ k := by
  by_contra hlt
  obtain ⟨next, hnext⟩ := exists_gatedChain_of_le hm (Nat.succ_le_of_lt (Nat.lt_of_not_le hlt))
  rw [gatedChain, hn, Option.bind_some, hend] at hnext
  cases hnext

theorem eq_of_gatedNext?_eq_none {start n m : Node} {j k : Nat} (hn : g.gatedChain flags start k = some n)
    (hnend : g.gatedNext? flags n = none) (hm : g.gatedChain flags start j = some m)
    (hmend : g.gatedNext? flags m = none) : n = m := by
  obtain rfl := Nat.le_antisymm (le_of_gatedNext?_eq_none hn hnend hm) (le_of_gatedNext?_eq_none hm hmend hn)
  exact Option.some.inj (hn.symm.trans hm)

theorem unbranched_of_end {start n : Node} {k : Nat} (hn : g.gatedChain flags start k = some n)
    (hbefore : g.UnbranchedBefore flags start k) (hnone : g.branchedTo? flags n = none)
    (hend : g.gatedNext? flags n = none) : g.Unbranched flags start := by
  intro _ j _ m hm
  rcases Nat.lt_or_eq_of_le (le_of_gatedNext?_eq_none hn hend hm) with hlt | rfl
  · exact hbefore j hlt m hm
  · exact Option.some.inj (hn.symm.trans hm) ▸ hnone

/-- A chain that comes back to a node goes round for ever. -/
theorem endless_of_return {start n : Node} {j k : Nat} (hjk : j < k) (hj : g.gatedChain flags start j = some n)
    (hk : g.gatedChain flags start k = some n) (hbefore : g.UnbranchedBefore flags start k) :
    g.Unbranched flags start ∧ ∀ i, ∃ m, g.gatedChain flags start i = some m := by
  have hround : ∀ i, ∃ early < k, g.gatedChain flags start i = g.gatedChain flags start early := by
    intro i
    induction i with
    | zero => exact ⟨0, Nat.zero_lt_of_lt hjk, rfl⟩
    | succ i ih =>
      obtain ⟨early, hearly, heq⟩ := ih
      have hnext : g.gatedChain flags start (i + 1) = g.gatedChain flags start (early + 1) := by
        rw [gatedChain, heq, gatedChain]
      rcases Nat.lt_or_eq_of_le (Nat.succ_le_of_lt hearly) with hlt | hend
      · exact ⟨early + 1, hlt, hnext⟩
      · exact ⟨j, hjk, by rw [hnext, ← Nat.succ_eq_add_one, hend, hk, hj]⟩
  constructor
  · intro _ i _ m hm
    obtain ⟨early, hearly, heq⟩ := hround i
    exact hbefore early hearly m (heq ▸ hm)
  · intro i
    obtain ⟨early, hearly, heq⟩ := hround i
    obtain ⟨m, hm⟩ := exists_gatedChain_of_le hk (Nat.le_of_lt hearly)
    exact ⟨m, heq.trans hm⟩

/-! ## Where a walk leads -/

theorem leadsTo_of_passes {n gated m : Node} (hpass : g.Passes flags n gated) (h : g.LeadsTo flags gated m) :
    g.LeadsTo flags n m := by
  rcases h with ⟨k, source, hsource, hbranch, hbefore⟩ | ⟨hunbranched, k, last, hlast, hm⟩
  · exact .inl ⟨k + 1, source, (gatedChain_of_passes hpass k).trans hsource, hbranch,
      (unbranchedBefore_of_passes hpass k).mpr hbefore⟩
  · refine .inr ⟨fun j => ?_, k + 1, last, (gatedChain_of_passes hpass k).trans hlast, hm⟩
    cases j with
    | zero => exact unbranchedBefore_zero n
    | succ j => exact (unbranchedBefore_of_passes hpass j).mpr (hunbranched j)

/-- Whatever a guarded walk comes to, the walk without a guard comes to as well, and it is a node of the graph. -/
theorem Walks.leadsTo {seen : Seen} {n : Node} {w : Walk} {id : String} (h : g.Walks flags seen n w)
    (hid : w.target = some id) : ∃ m, g.LeadsTo flags n m ∧ m.id = some id ∧ g.node? id = some m := by
  induction h with
  | stopped _ => cases hid
  | dead _ _ _ => cases hid
  | @branch seen n m _ hbranch =>
    obtain ⟨branch, _, _, hm⟩ := exists_branch_of_findSome? hbranch
    have hnode : g.find? (some id) = some m := hid ▸ find?_id hm
    exact ⟨m, .inl ⟨0, n, rfl, hbranch, unbranchedBefore_zero n⟩, hid, hnode⟩
  | @next seen n m _ hnone hm hs =>
    have hnode : g.find? (some id) = some m := hid ▸ find?_id hm
    have hend := unbranched_of_end rfl (unbranchedBefore_zero n) hnone (gatedNext?_of_satisfiedBy hm hs)
    exact ⟨m, .inr ⟨hend, 0, n, rfl, hm, hs⟩, hid, hnode⟩
  | past _ hpass _ ih =>
    obtain ⟨m, hm, hfound⟩ := ih hid
    exact ⟨m, leadsTo_of_passes hpass hm, hfound⟩

theorem LeadsTo.unique {start a b : Node} (ha : g.LeadsTo flags start a) (hb : g.LeadsTo flags start b) : a = b := by
  rcases ha with ⟨k, n, hn, hna, hbefore⟩ | ⟨hunbranched, k, n, hn, hna, hs⟩
  · rcases hb with ⟨j, m, hm, hmb, hbefore'⟩ | ⟨hunbranched, _⟩
    · rcases Nat.lt_trichotomy k j with hlt | rfl | hlt
      · exact absurd (hna.symm.trans (hbefore' k hlt n hn)) (Option.some_ne_none a)
      · obtain rfl := Option.some.inj (hn.symm.trans hm)
        exact Option.some.inj (hna.symm.trans hmb)
      · exact absurd (hmb.symm.trans (hbefore j hlt m hm)) (Option.some_ne_none b)
    · exact absurd (hna.symm.trans (hunbranched (k + 1) k (Nat.lt_succ_self k) n hn)) (Option.some_ne_none a)
  · rcases hb with ⟨j, m, hm, hmb, _⟩ | ⟨_, j, m, hm, hmb, hs'⟩
    · exact absurd (hmb.symm.trans (hunbranched (j + 1) j (Nat.lt_succ_self j) m hm)) (Option.some_ne_none b)
    · have hend := gatedNext?_of_satisfiedBy hna hs
      have hend' := gatedNext?_of_satisfiedBy hmb hs'
      obtain rfl := eq_of_gatedNext?_eq_none hn hend hm hend'
      exact Option.some.inj (hna.symm.trans hmb)

variable (g flags) in
/-- The walk without a guard leads nowhere: no branch leads away, and the chain runs dry or never ends. -/
def LeadsNowhere (start : Node) : Prop :=
  g.Unbranched flags start ∧ ((∃ k n, g.gatedChain flags start k = some n ∧ g.find? n.next = none) ∨
    ∀ k, ∃ n, g.gatedChain flags start k = some n)

theorem LeadsNowhere.not_leadsTo {start m : Node} (h : g.LeadsNowhere flags start) : ¬ g.LeadsTo flags start m := by
  obtain ⟨hunbranched, hend⟩ := h
  rintro (⟨k, n, hn, hm, _⟩ | ⟨_, k, n, hn, hm, hs⟩)
  · exact absurd (hm.symm.trans (hunbranched (k + 1) k (Nat.lt_succ_self k) n hn)) (Option.some_ne_none m)
  · have hnend := gatedNext?_of_satisfiedBy hm hs
    rcases hend with ⟨j, dead, hdead, hnext⟩ | hendless
    · obtain rfl := eq_of_gatedNext?_eq_none hn hnend hdead (gatedNext?_of_dead hnext)
      exact absurd (hm.symm.trans hnext) (Option.some_ne_none m)
    · obtain ⟨later, hlater⟩ := hendless (k + 1)
      exact absurd (le_of_gatedNext?_eq_none hn hnend hlater) (Nat.not_succ_le_self k)

theorem id_ne_none_of_find? {id : Option String} {n : Node} (h : g.find? id = some n) : n.id ≠ none := by
  intro hnone
  have hfound := find?_id h
  rw [hnone, find?_none] at hfound
  cases hfound

/-- A guarded walk that comes to nothing has reached a node without a way on, or one whose id it was to stay away
from. -/
theorem Walks.stuck {seen : Seen} {n : Node} {w : Walk} (h : g.Walks flags seen n w) (hnone : w.target = none) :
    ∃ k m, g.gatedChain flags n k = some m ∧ g.UnbranchedBefore flags n k ∧
      (g.branchedTo? flags m = none ∧ g.find? m.next = none ∨ m.id ∈ seen ∨
        ∃ j < k, ∃ earlier, g.gatedChain flags n j = some earlier ∧ earlier.id = m.id) := by
  induction h with
  | @stopped seen n hmem => exact ⟨0, n, rfl, unbranchedBefore_zero n, .inr (.inl hmem)⟩
  | @dead seen n _ hbranch hdead => exact ⟨0, n, rfl, unbranchedBefore_zero n, .inl ⟨hbranch, hdead⟩⟩
  | branch _ hbranch =>
    obtain ⟨branch, _, _, hm⟩ := exists_branch_of_findSome? hbranch
    exact absurd hnone (id_ne_none_of_find? hm)
  | next _ _ hm _ => exact absurd hnone (id_ne_none_of_find? hm)
  | @past seen n gated w _ hpass _ ih =>
    obtain ⟨k, m, hm, hbefore, hwhy⟩ := ih hnone
    refine ⟨k + 1, m, (gatedChain_of_passes hpass k).trans hm, (unbranchedBefore_of_passes hpass k).mpr hbefore, ?_⟩
    rcases hwhy with hdead | hmem | ⟨j, hj, earlier, hearlier, hid⟩
    · exact .inl hdead
    · rcases List.mem_cons.mp hmem with hid | hmem
      · exact .inr (.inr ⟨0, Nat.succ_pos k, n, rfl, hid.symm⟩)
      · exact .inr (.inl hmem)
    · exact .inr (.inr ⟨j + 1, Nat.succ_lt_succ hj, earlier, (gatedChain_of_passes hpass j).trans hearlier, hid⟩)

/-- Without a memory to begin with, a walk that comes to nothing has nowhere to lead to: a node that it meets for the
second time lies on a circle. -/
theorem Walks.leadsNowhere {start : Node} {w : Walk} (hstart : g.Alone start) (h : g.Walks flags [] start w)
    (hnone : w.target = none) : g.LeadsNowhere flags start := by
  obtain ⟨k, m, hm, hbefore, ⟨hbranch, hdead⟩ | hmem | ⟨j, hj, earlier, hearlier, hid⟩⟩ := h.stuck hnone
  · exact ⟨unbranched_of_end hm hbefore hbranch (gatedNext?_of_dead hdead), .inl ⟨k, m, hm, hdead⟩⟩
  · exact absurd hmem List.not_mem_nil
  · have hfound : g.find? m.id = some m := by
      cases k with
      | zero => exact absurd hj (Nat.not_lt_zero j)
      | succ k => exact find?_id_of_gatedChain hm
    obtain rfl : m = earlier := alone_of_gatedChain hstart hearlier m (hid ▸ hfound)
    obtain ⟨hunbranched, hendless⟩ := endless_of_return hj hearlier hm hbefore
    exact ⟨hunbranched, .inr hendless⟩

/-! ## More to stay away from -/

theorem Walks.of_subset {seen fewer : Seen} {n : Node} {w : Walk} {id : String} (h : g.Walks flags seen n w)
    (hid : w.target = some id) (hsub : ∀ x ∈ fewer, x ∈ seen) :
    ∃ other, g.Walks flags fewer n other ∧ other.target = some id := by
  induction h generalizing fewer with
  | stopped _ => cases hid
  | dead _ _ _ => cases hid
  | branch hfresh hbranch => exact ⟨_, .branch (mt (hsub _) hfresh) hbranch, hid⟩
  | next hfresh hnone hm hs => exact ⟨_, .next (mt (hsub _) hfresh) hnone hm hs, hid⟩
  | @past seen n gated w hfresh hpass _ ih =>
    have hstill : ∀ x ∈ n.id :: fewer, x ∈ n.id :: seen := by
      intro x hx
      rcases List.mem_cons.mp hx with rfl | hx
      · exact List.mem_cons_self
      · exact List.mem_cons_of_mem _ (hsub x hx)
    obtain ⟨other, hother, htarget⟩ := ih hid hstill
    exact ⟨other, .past (mt (hsub _) hfresh) hpass hother, htarget⟩

/-! ## The nodes that are walked through -/

theorem walksThrough_zero {seen : Seen} {n m : Node} :
    g.WalksThrough flags seen n 0 m ↔ m = n ∧ n.id ∉ seen := by
  constructor
  · intro h
    exact ⟨(Option.some.inj h.reached).symm, h.fresh 0 (Nat.le_refl 0) n rfl⟩
  · rintro ⟨rfl, hfresh⟩
    refine ⟨rfl, unbranchedBefore_zero m, ?_, ?_⟩
    · intro j hj n hn
      obtain rfl := Nat.le_zero.mp hj
      exact Option.some.inj hn ▸ hfresh
    · intro j hj n hn i hi
      exact absurd (Nat.lt_of_lt_of_le hi hj) (Nat.not_lt_zero i)

theorem WalksThrough.passes {seen : Seen} {n m : Node} {k : Nat} (h : g.WalksThrough flags seen n (k + 1) m) :
    ∃ gated, g.Passes flags n gated := by
  have hreached := h.reached
  rw [gatedChain_succ] at hreached
  obtain ⟨gated, hgated, _⟩ := Option.bind_eq_some_iff.mp hreached
  exact ⟨gated, passes_iff.mpr ⟨h.unbranched 0 (Nat.succ_pos k) n rfl, hgated⟩⟩

theorem walksThrough_succ {seen : Seen} {n gated m : Node} {k : Nat} (hpass : g.Passes flags n gated) :
    g.WalksThrough flags seen n (k + 1) m ↔ n.id ∉ seen ∧ g.WalksThrough flags (n.id :: seen) gated k m := by
  have hshift := gatedChain_of_passes hpass
  constructor
  · intro h
    refine ⟨h.fresh 0 (Nat.zero_le _) n rfl, (hshift k).symm.trans h.reached,
      (unbranchedBefore_of_passes hpass k).mp h.unbranched, ?_, ?_⟩
    · intro j hj later hlater
      have hlater := (hshift j).trans hlater
      have hj := Nat.succ_le_succ hj
      have hne : n.id ≠ later.id := h.apart (j + 1) hj later hlater 0 (Nat.succ_pos j) n rfl
      exact fun hmem => (List.mem_cons.mp hmem).elim hne.symm (h.fresh (j + 1) hj later hlater)
    · intro j hj later hlater i hi earlier hearlier
      exact h.apart (j + 1) (Nat.succ_le_succ hj) later ((hshift j).trans hlater) (i + 1) (Nat.succ_lt_succ hi) earlier
        ((hshift i).trans hearlier)
  · rintro ⟨hfresh, h⟩
    refine ⟨(hshift k).trans h.reached, (unbranchedBefore_of_passes hpass k).mpr h.unbranched, ?_, ?_⟩
    · intro j hj later hlater
      cases j with
      | zero => exact Option.some.inj hlater ▸ hfresh
      | succ j =>
        have hmem := h.fresh j (Nat.le_of_succ_le_succ hj) later ((hshift j).symm.trans hlater)
        exact fun hseen => hmem (List.mem_cons_of_mem _ hseen)
    · intro j hj later hlater i hi earlier hearlier
      cases j with
      | zero => exact absurd hi (Nat.not_lt_zero i)
      | succ j =>
        have hj := Nat.le_of_succ_le_succ hj
        have hlater := (hshift j).symm.trans hlater
        cases i with
        | zero =>
          obtain rfl := Option.some.inj hearlier
          exact fun heq => h.fresh j hj later hlater (heq ▸ List.mem_cons_self)
        | succ i =>
          exact h.apart j hj later hlater i (Nat.lt_of_succ_lt_succ hi) earlier ((hshift i).symm.trans hearlier)

theorem mem_cons_iff_walksThrough {seen : Seen} {n : Node} (hfresh : n.id ∉ seen)
    (hend : ∀ gated, ¬ g.Passes flags n gated) (id : Option String) :
    id ∈ n.id :: seen ↔ id ∈ seen ∨ ∃ k m, g.WalksThrough flags seen n k m ∧ m.id = id := by
  constructor
  · intro h
    rcases List.mem_cons.mp h with rfl | h
    · exact .inr ⟨0, n, walksThrough_zero.mpr ⟨rfl, hfresh⟩, rfl⟩
    · exact .inl h
  · rintro (h | ⟨k, m, hthrough, rfl⟩)
    · exact List.mem_cons_of_mem _ h
    · cases k with
      | zero => exact (walksThrough_zero.mp hthrough).1 ▸ List.mem_cons_self
      | succ k =>
        obtain ⟨gated, hpass⟩ := hthrough.passes
        exact absurd hpass (hend gated)

/-- A walk remembers what it was to stay away from and the nodes that it has walked through. -/
theorem Walks.mem_seen_iff {seen : Seen} {n : Node} {w : Walk} (h : g.Walks flags seen n w) (id : Option String) :
    id ∈ w.seen ↔ id ∈ seen ∨ ∃ k m, g.WalksThrough flags seen n k m ∧ m.id = id := by
  induction h with
  | @stopped seen n hmem =>
    refine ⟨.inl, ?_⟩
    rintro (h | ⟨k, m, hthrough, rfl⟩)
    · exact h
    · exact absurd hmem (hthrough.fresh 0 (Nat.zero_le k) n rfl)
  | @branch seen n m hfresh hbranch =>
    exact mem_cons_iff_walksThrough hfresh (fun gated hpass => Option.some_ne_none m (hbranch.symm.trans hpass.1)) id
  | @dead seen n hfresh _ hdead =>
    exact mem_cons_iff_walksThrough hfresh
      (fun gated hpass => Option.some_ne_none gated (hpass.2.1.symm.trans hdead)) id
  | @next seen n m hfresh _ hm hs =>
    refine mem_cons_iff_walksThrough hfresh (fun gated hpass => ?_) id
    obtain rfl := Option.some.inj (hm.symm.trans hpass.2.1)
    exact Bool.false_ne_true (hpass.2.2.symm.trans hs)
  | @past seen n gated w hfresh hpass _ ih =>
    rw [ih, List.mem_cons]
    constructor
    · rintro ((rfl | h) | ⟨k, m, hthrough, rfl⟩)
      · exact .inr ⟨0, n, walksThrough_zero.mpr ⟨rfl, hfresh⟩, rfl⟩
      · exact .inl h
      · exact .inr ⟨k + 1, m, (walksThrough_succ hpass).mpr ⟨hfresh, hthrough⟩, rfl⟩
    · rintro (h | ⟨k, m, hthrough, rfl⟩)
      · exact .inl (.inr h)
      · cases k with
        | zero => exact .inl (.inl (congrArg Node.id (walksThrough_zero.mp hthrough).1))
        | succ k => exact .inr ⟨k, m, ((walksThrough_succ hpass).mp hthrough).2, rfl⟩

theorem WalksThrough.le_size {seen : Seen} {start n : Node} {k : Nat} (h : g.WalksThrough flags seen start k n) :
    k ≤ g.size := by
  let idAt (j : Nat) : Option String := (g.gatedChain flags start (j + 1)).bind Node.id
  have hidAt : ∀ j < k, ∃ m, g.gatedChain flags start (j + 1) = some m ∧ idAt j = m.id := by
    intro j hj
    obtain ⟨m, hm⟩ := exists_gatedChain_of_le h.reached (Nat.succ_le_of_lt hj)
    exact ⟨m, hm, by simp only [idAt, hm, Option.bind_some]⟩
  have hapart : ∀ i j, i < j → j < k → idAt i ≠ idAt j := by
    intro i j hij hj
    obtain ⟨earlier, hearlier, hi⟩ := hidAt i (Nat.lt_trans hij hj)
    obtain ⟨m, hm, hmid⟩ := hidAt j hj
    rw [hi, hmid]
    exact h.apart (j + 1) hj m hm (i + 1) (Nat.succ_lt_succ hij) earlier hearlier
  have hnodup : ((List.range k).map idAt).Nodup := by
    refine List.Nodup.map_on ?_ List.nodup_range
    intro i hi j hj heq
    have hi := List.mem_range.mp hi
    have hj := List.mem_range.mp hj
    rcases Nat.lt_trichotomy i j with hlt | rfl | hlt
    · exact absurd heq (hapart i j hlt hj)
    · rfl
    · exact absurd heq.symm (hapart j i hlt hi)
  have hsubset : (List.range k).map idAt ⊆ g.ids.map some := by
    intro id hid
    obtain ⟨j, hj, rfl⟩ := List.mem_map.mp hid
    obtain ⟨m, hm, hmid⟩ := hidAt j (List.mem_range.mp hj)
    rw [hmid]
    exact mem_ids_of_find? (find?_id_of_gatedChain hm)
  have hlength := (List.subperm_of_subset hnodup hsubset).length_le
  rwa [List.length_map, List.length_range, List.length_map] at hlength

/-- What the guard of a walk does. Without a memory a walk comes to exactly what the walk without a guard leads to,
and to nothing exactly if that one runs dry or never ends; the start has to be the one node under its id. What a walk
comes to is in the graph. With fewer ids to stay away from it comes to the same. It remembers exactly the ids that it
was to stay away from and those of the nodes that it has walked through, and these are at most one more than there
are ids in the graph. -/
theorem next_truncates (g : Graph) (flags : Flags) (start : Node) (h : g.Alone start) :
    (∀ id, (g.next flags start []).value.target = some id ↔ ∃ m, g.LeadsTo flags start m ∧ m.id = some id) ∧
    ((g.next flags start []).value.target = none ↔ g.LeadsNowhere flags start) ∧
    (∀ seen id, (g.next flags start seen).value.target = some id → g.contains id = true) ∧
    (∀ seen fewer id, (∀ x ∈ fewer, x ∈ seen) → (g.next flags start seen).value.target = some id →
      (g.next flags start fewer).value.target = some id) ∧
    ∀ seen, (∀ id, id ∈ (g.next flags start seen).value.seen ↔
        id ∈ seen ∨ ∃ k n, g.WalksThrough flags seen start k n ∧ n.id = id) ∧
      ∀ k n, g.WalksThrough flags seen start k n → k ≤ g.size := by
  have hwalks : ∀ seen, g.Walks flags seen start (g.next flags start seen).value := g.walks_next start
  have hnone : (g.next flags start []).value.target = none → g.LeadsNowhere flags start := (hwalks []).leadsNowhere h
  refine ⟨fun id => ⟨fun hid => ?_, ?_⟩, ⟨hnone, fun hnowhere => ?_⟩, ?_, ?_, ?_⟩
  · obtain ⟨m, hm, hmid, _⟩ := (hwalks []).leadsTo hid
    exact ⟨m, hm, hmid⟩
  · rintro ⟨m, hm, hmid⟩
    cases htarget : (g.next flags start []).value.target with
    | none => exact absurd hm (hnone htarget).not_leadsTo
    | some other =>
      obtain ⟨found, hfound, hid, _⟩ := (hwalks []).leadsTo htarget
      exact hid.symm.trans (hfound.unique hm ▸ hmid)
  · cases htarget : (g.next flags start []).value.target with
    | none => rfl
    | some id =>
      obtain ⟨m, hm, _⟩ := (hwalks []).leadsTo htarget
      exact absurd hm hnowhere.not_leadsTo
  · intro seen id hid
    obtain ⟨m, _, _, hm⟩ := (hwalks seen).leadsTo hid
    exact Option.isSome_iff_exists.mpr ⟨m, hm⟩
  · intro seen fewer id hsub hid
    obtain ⟨other, hother, htarget⟩ := (hwalks seen).of_subset hid hsub
    rw [← hother.unique (hwalks fewer)]
    exact htarget
  · intro seen
    exact ⟨(hwalks seen).mem_seen_iff, fun k n hthrough => hthrough.le_size⟩

def shutRoom (id next : String) (branches : List Branch) : Node :=
  { id := some id, kind := .singleParagraph, conditions := [("key", .bool true)], next := some next, branches }

def shutHall : Node := shutRoom "hall" "attic" [{ next := some "lost" }]

/-- Three shut rooms, one behind the other and the first behind the last; a gap leads from the last one outside. -/
def shutRooms : Graph :=
  { nodes :=
      [shutHall, shutRoom "attic" "cellar" [],
       shutRoom "cellar" "hall" [{ next := some "garden", conditions := [("gap", .bool true)] }],
       shutRoom "garden" "" []] }

/-- With the gap a walk from the hall comes outside, and without it to nothing. -/
theorem next_shutRooms : shutRooms.Alone shutHall ∧
    (shutRooms.next [("gap", .bool true)] shutHall []).value.target = some "garden" ∧
    (shutRooms.next [] shutHall []).value.target = none := by
  have halone : shutRooms.Alone shutHall := fun other h => (Option.some.inj h).symm
  refine ⟨halone, ?_, ?_⟩
  · refine ((next_truncates shutRooms _ shutHall halone).1 "garden").mpr ?_
    refine ⟨_, .inl ⟨2, _, rfl, rfl, ?_⟩, rfl⟩
    intro j hj n hn
    match j, hj with
    | 0, _ | 1, _ => exact Option.some.inj hn ▸ rfl
  · have hbefore : shutRooms.UnbranchedBefore [] shutHall 3 := by
      intro j hj n hn
      match j, hj with
      | 0, _ | 1, _ | 2, _ => exact Option.some.inj hn ▸ rfl
    obtain ⟨hunbranched, hendless⟩ := endless_of_return (Nat.succ_pos 2) rfl rfl hbefore
    exact (next_truncates shutRooms [] shutHall halone).2.1.mpr ⟨hunbranched, .inr hendless⟩

end Graph
end BranchingStory
