import BranchingStory.Story.Walk
import Mathlib.Logic.Relation
import Mathlib.Tactic.Common

/-!
# The orbit of a node

A walk is guarded: it remembers where it has been and stops when it comes back. Without the guard
each node has at most one successor, the orbit of a node is the possibly endless sequence of
successors, and what can be shown from a node is the first node of its orbit whose conditions hold.

The guard never cuts this search short. All ids that a search remembers belong to gated nodes behind
the present one, so coming back to one of them shows that the orbit has closed into a cycle of gated
nodes.
-/

namespace BranchingStory
namespace Graph

variable (g : Graph) (flags : Flags)

def branchNode? (branch : Branch) : Option Node :=
  if flags.meet branch.conditions then g.find? branch.next else none

/-- The successor of a node, whether or not that one may be shown: the target of the first branch that
leads anywhere, and otherwise the plain successor. -/
def step (n : Node) : Option Node :=
  (n.branches.findSome? (g.branchNode? flags)).or (g.find? n.next)

def orbit (start : Node) : Nat → Option Node
  | 0 => some start
  | k + 1 => (orbit start k).bind (g.step flags)

/-- A step from a node that may not be shown. -/
def Skips (n next : Node) : Prop := n.satisfiedBy flags = false ∧ g.step flags n = some next

/-- The first node of the orbit of `n` that may be shown is `m`. -/
inductive OpensAt : Node → Node → Prop
  | here {n : Node} : n.satisfiedBy flags = true → OpensAt n n
  | further {n next m : Node} : g.Skips flags n next → OpensAt next m → OpensAt n m

/-- No other node of the graph has the id of `n`. -/
def Alone (n : Node) : Prop := ∀ other, g.find? n.id = some other → other = n

variable {g flags}

/-! ## Orbits -/

theorem orbit_succ (start : Node) (k : Nat) :
    g.orbit flags start (k + 1) = (g.step flags start).bind fun next => g.orbit flags next k := by
  induction k with
  | zero => cases h : g.step flags start <;> simp [orbit, h]
  | succ k ih =>
    rw [orbit, ih]
    cases h : g.step flags start <;> simp [orbit]

theorem Skips.unique {n a b : Node} (ha : g.Skips flags n a) (hb : g.Skips flags n b) : a = b := by
  have h : some a = some b := ha.2.symm.trans hb.2
  exact Option.some.inj h

theorem OpensAt.of_skips {n next m : Node} (hskip : g.Skips flags n next) :
    g.OpensAt flags n m ↔ g.OpensAt flags next m := by
  constructor
  · intro h
    cases h with
    | here hn => exact absurd (hskip.1.symm.trans hn) Bool.false_ne_true
    | further hskip' h => exact hskip.unique hskip' ▸ h
  · exact OpensAt.further hskip

theorem OpensAt.of_skipsAll {n next m : Node} (hskip : Relation.TransGen (g.Skips flags) n next) :
    g.OpensAt flags n m ↔ g.OpensAt flags next m := by
  induction hskip with
  | single h => exact of_skips h
  | tail _ h ih => exact ih.trans (of_skips h)

theorem OpensAt.unique {n a b : Node} (ha : g.OpensAt flags n a) (hb : g.OpensAt flags n b) :
    a = b := by
  induction ha with
  | here hn =>
    cases hb with
    | here _ => rfl
    | further hskip _ => exact absurd (hskip.1.symm.trans hn) Bool.false_ne_true
  | further hskip _ ih => exact ih ((of_skips hskip).mp hb)

/-- From a node on a cycle of gated nodes nothing opens. -/
theorem OpensAt.not_cycle {n m : Node} (h : g.OpensAt flags n m) :
    ¬ Relation.TransGen (g.Skips flags) n n := by
  induction h with
  | here hn =>
    intro hcycle
    obtain ⟨next, hskip, _⟩ := Relation.TransGen.head'_iff.mp hcycle
    exact absurd (hskip.1.symm.trans hn) Bool.false_ne_true
  | further hskip _ ih =>
    intro hcycle
    obtain ⟨next, hskip', hrest⟩ := Relation.TransGen.head'_iff.mp hcycle
    obtain rfl := hskip.unique hskip'
    exact ih (Relation.TransGen.tail' hrest hskip)

/-- The inductive reading of "first in the orbit" agrees with counting steps. -/
theorem opensAt_iff {n m : Node} :
    g.OpensAt flags n m ↔ ∃ k, g.orbit flags n k = some m ∧ m.satisfiedBy flags = true ∧
      ∀ j < k, ∀ skipped, g.orbit flags n j = some skipped → skipped.satisfiedBy flags = false := by
  constructor
  · intro h
    induction h with
    | here hn => exact ⟨0, rfl, hn, fun j hj => absurd hj (Nat.not_lt_zero j)⟩
    | @further n next m hskip _ ih =>
      obtain ⟨k, hk, hm, hgated⟩ := ih
      refine ⟨k + 1, by rw [orbit_succ, hskip.2]; exact hk, hm, ?_⟩
      intro j hj skipped hs
      cases j with
      | zero => exact Option.some.inj hs ▸ hskip.1
      | succ j =>
        rw [orbit_succ, hskip.2] at hs
        exact hgated j (Nat.lt_of_succ_lt_succ hj) skipped hs
  · rintro ⟨k, hk, hm, hgated⟩
    induction k generalizing n with
    | zero =>
      obtain rfl := Option.some.inj hk
      exact .here hm
    | succ k ih =>
      have hn : n.satisfiedBy flags = false := hgated 0 (Nat.succ_pos k) n rfl
      rw [orbit_succ] at hk
      obtain ⟨next, hnext, hk⟩ := Option.bind_eq_some_iff.mp hk
      refine .further ⟨hn, hnext⟩ (ih hk fun j hj skipped hs => ?_)
      exact hgated (j + 1) (Nat.succ_lt_succ hj) skipped (by rw [orbit_succ, hnext]; exact hs)

theorem exists_opensAt {n m : Node} {k : Nat} (hk : g.orbit flags n k = some m)
    (hm : m.satisfiedBy flags = true) : ∃ first, g.OpensAt flags n first := by
  induction k generalizing n with
  | zero => exact ⟨n, .here (Option.some.inj hk ▸ hm)⟩
  | succ k ih =>
    cases hn : n.satisfiedBy flags with
    | true => exact ⟨n, .here hn⟩
    | false =>
      rw [orbit_succ] at hk
      obtain ⟨next, hnext, hk⟩ := Option.bind_eq_some_iff.mp hk
      obtain ⟨first, hfirst⟩ := ih hk
      exact ⟨first, .further ⟨hn, hnext⟩ hfirst⟩

/-! ## What a walk finds -/

theorem find?_id {id : Option String} {n : Node} (h : g.find? id = some n) : g.find? n.id = some n := by
  rw [id_of_find? h, h]

theorem find?_id_of_node? {id : String} {n : Node} (h : g.node? id = some n) :
    g.find? n.id = some n := find?_id ((g.find?_some id).trans h)

theorem find?_eq_node? {id : Option String} {target : String} (h : nonEmpty? id = some target) :
    g.find? id = g.node? target := by
  obtain ⟨rfl, _⟩ := nonEmpty?_eq_some.mp h
  rfl

theorem find?_of_nonEmpty?_none {id : Option String} (h : nonEmpty? id = none) : g.find? id = none := by
  rcases nonEmpty?_eq_none.mp h with rfl | rfl <;> rfl

theorem branchTarget_spec (source : Option String) (branches : List Branch) :
    (∀ id, (g.branchTarget flags source branches).value = some id →
      ∃ target, g.node? id = some target ∧ branches.findSome? (g.branchNode? flags) = some target) ∧
    ((g.branchTarget flags source branches).value = none →
      branches.findSome? (g.branchNode? flags) = none) := by
  fun_induction g.branchTarget flags source branches with
  | case1 => simp
  | case2 branch branches hnext ih =>
    simpa [List.findSome?_cons, branchNode?, find?_of_nonEmpty?_none hnext] using ih
  | case3 branch branches target hnext hmeet hin =>
    obtain ⟨n, hn⟩ := Option.isSome_iff_exists.mp hin
    simp [branchNode?, find?_eq_node? hnext, hmeet, hn]
  | case4 branch branches target hnext hmeet hin ih =>
    have hn : g.node? target = none := by simpa [contains] using hin
    simpa [List.findSome?_cons, branchNode?, find?_eq_node? hnext, hmeet, hn] using ih
  | case5 branch branches target hnext hmeet ih =>
    simpa [List.findSome?_cons, branchNode?, hmeet] using ih

/-! ## The guard -/

variable (g flags) in
/-- What a search knows when it comes to a node: every remembered id belongs to a gated node that lies
behind. -/
structure Trail (seen : Seen) (n : Node) : Prop where
  alone : g.Alone n
  known : g.find? n.id = some n ∨ seen = []
  behind : ∀ id ∈ seen, ∃ earlier : Node, earlier.id = id ∧ g.Alone earlier ∧
    Relation.TransGen (g.Skips flags) earlier n

theorem alone_of_find? {n : Node} (h : g.find? n.id = some n) : g.Alone n := by
  intro other ho
  exact Option.some.inj (ho.symm.trans h)

theorem Trail.start {n : Node} (h : g.Alone n) : g.Trail flags [] n :=
  { alone := h
    known := .inr rfl
    behind := fun _ hid => absurd hid List.not_mem_nil }

theorem Trail.skip {seen : Seen} {n next : Node} (t : g.Trail flags seen n)
    (hskip : g.Skips flags n next) (hnext : g.find? next.id = some next) :
    g.Trail flags (n.id :: seen) next where
  alone := alone_of_find? hnext
  known := .inl hnext
  behind := by
    intro id hid
    rcases List.mem_cons.mp hid with rfl | hid
    · exact ⟨n, rfl, t.alone, .single hskip⟩
    · obtain ⟨earlier, he, halone, hbehind⟩ := t.behind id hid
      exact ⟨earlier, he, halone, hbehind.tail hskip⟩

theorem Trail.cycle {seen : Seen} {n : Node} (t : g.Trail flags seen n) (h : n.id ∈ seen) :
    Relation.TransGen (g.Skips flags) n n := by
  obtain ⟨earlier, he, halone, hbehind⟩ := t.behind n.id h
  rcases t.known with hknown | rfl
  · have heq : n = earlier := halone n (he ▸ hknown)
    exact heq ▸ hbehind
  · exact absurd h List.not_mem_nil

/-- From a gated node a walk either comes to a node behind gated ones only, with its trail kept, or
shows that nothing opens. -/
theorem Trail.next {seen : Seen} {n : Node} (t : g.Trail flags seen n)
    (hn : n.satisfiedBy flags = false) :
    (∀ target, g.find? (g.next flags n seen).value.target = some target →
      Relation.TransGen (g.Skips flags) n target ∧
        g.Trail flags (g.next flags n seen).value.seen target) ∧
    (g.find? (g.next flags n seen).value.target = none → ∀ m, ¬ g.OpensAt flags n m) := by
  -- A node without a successor opens nothing once it is gated itself.
  have stuck : ∀ {n : Node}, n.satisfiedBy flags = false → g.step flags n = none →
      ∀ m, ¬ g.OpensAt flags n m := by
    intro n hn hstep m h
    cases h with
    | here hs => exact absurd (hn.symm.trans hs) Bool.false_ne_true
    | further hskip _ => exact absurd (hstep.symm.trans hskip.2) (Option.some_ne_none _).symm
  fun_induction g.next flags n seen with
  | case1 n seen hmem => exact ⟨by simp, fun _ m h => h.not_cycle (t.cycle hmem)⟩
  | case2 n seen hmem branched id hb =>
    obtain ⟨target, htarget, hfirst⟩ := (branchTarget_spec n.id n.branches).1 id hb
    have hskip : g.Skips flags n target := ⟨hn, by simp [step, hfirst]⟩
    refine ⟨fun found hfound => ?_, fun hnone => ?_⟩
    · obtain rfl : target = found := by simpa [htarget] using hfound
      exact ⟨.single hskip, t.skip hskip (find?_id_of_node? htarget)⟩
    · simp [htarget] at hnone
  | case3 n seen hmem branched hb hnext =>
    have hfirst := (branchTarget_spec n.id n.branches).2 hb
    exact ⟨by simp, fun _ => stuck hn (by simp [step, hfirst, find?_of_nonEmpty?_none hnext])⟩
  | case4 n seen hmem branched hb id hnext htarget =>
    have hfirst := (branchTarget_spec n.id n.branches).2 hb
    exact ⟨by simp, fun _ => stuck hn (by simp [step, hfirst, find?_eq_node? hnext, htarget])⟩
  | case5 n seen hmem branched hb id hnext target htarget hs =>
    have hfirst := (branchTarget_spec n.id n.branches).2 hb
    have hskip : g.Skips flags n target := ⟨hn, by simp [step, hfirst, find?_eq_node? hnext, htarget]⟩
    refine ⟨fun found hfound => ?_, fun hnone => ?_⟩
    · obtain rfl : target = found := by simpa [find?_id_of_node? htarget] using hfound
      exact ⟨.single hskip, t.skip hskip (find?_id_of_node? htarget)⟩
    · simp [find?_id_of_node? htarget] at hnone
  | case6 n seen hmem branched hb id hnext target htarget hs rest ih =>
    have hfirst := (branchTarget_spec n.id n.branches).2 hb
    have hskip : g.Skips flags n target := ⟨hn, by simp [step, hfirst, find?_eq_node? hnext, htarget]⟩
    have hgated : target.satisfiedBy flags = false := by simpa using hs
    obtain ⟨hfound, hnone⟩ := ih (t.skip hskip (find?_id_of_node? htarget)) hgated
    refine ⟨fun found h => ?_, fun h m hm => ?_⟩
    · obtain ⟨hskips, htrail⟩ := hfound found h
      exact ⟨hskips.head hskip, htrail⟩
    · exact hnone h m ((OpensAt.of_skips hskip).mp hm)

/-- A search that knows its trail finds what opens from the node, and nothing only if nothing does. -/
theorem Trail.renderable {seen : Seen} {n : Node} (t : g.Trail flags seen n) :
    (∀ m, (g.renderable flags n seen).value = some m → g.OpensAt flags n m) ∧
    ((g.renderable flags n seen).value = none → ∀ m, ¬ g.OpensAt flags n m) := by
  fun_induction g.renderable flags n seen with
  | case1 n seen hs => exact ⟨fun m h => Option.some.inj h ▸ .here hs, by simp⟩
  | case2 n seen hs step hnone =>
    exact ⟨by simp, fun _ => (t.next (by simpa using hs)).2 hnone⟩
  | case3 n seen hs step target htarget rest ih =>
    obtain ⟨hskips, htrail⟩ := (t.next (by simpa using hs)).1 target htarget
    obtain ⟨hsome, hnone⟩ := ih htrail
    refine ⟨fun m h => ?_, fun h m hm => ?_⟩
    · exact (OpensAt.of_skipsAll hskips).mpr (hsome m h)
    · exact hnone h m ((OpensAt.of_skipsAll hskips).mp hm)

/-- The node found from a node that no other one shares its id with is the one that opens. -/
theorem renderableOf_eq_some {start m : Node} (h : g.Alone start) :
    (g.renderableOf flags (some start)).value = some m ↔ g.OpensAt flags start m := by
  have trail : g.Trail flags [] start := Trail.start h
  obtain ⟨hsome, hnone⟩ := trail.renderable
  refine ⟨hsome m, fun hm => ?_⟩
  cases hfound : (g.renderable flags start []).value with
  | none => exact absurd hm (hnone hfound m)
  | some found => exact congrArg some ((hsome found hfound).unique hm) ▸ hfound

theorem find?_of_renderable {seen : Seen} {n m : Node} (h : (g.renderable flags n seen).value = some m) :
    m = n ∨ g.find? m.id = some m := by
  fun_induction g.renderable flags n seen with
  | case1 n seen hs => exact .inl (Option.some.inj h).symm
  | case2 n seen hs step hnone => simp at h
  | case3 n seen hs step target htarget rest ih =>
    rcases ih h with rfl | hm
    · exact .inr (find?_id htarget)
    · exact .inr hm

theorem find?_of_renderableOf {id : Option String} {m : Node}
    (h : (g.renderableOf flags (g.find? id)).value = some m) : g.find? m.id = some m := by
  cases hid : g.find? id with
  | none => simp [hid, renderableOf] at h
  | some n =>
    rw [hid] at h
    rcases find?_of_renderable h with rfl | hm
    · exact find?_id hid
    · exact hm

/-- Searching from a node comes to exactly the first node of its orbit that may be shown, and to nothing
exactly if the whole orbit, endless or not, is gated. Only the start has to be the one node under its
id; the ids of all others may repeat. -/
theorem renderableOf_first_of_orbit (g : Graph) (flags : Flags) (start : Node) (h : g.Alone start) :
    (∀ m, (g.renderableOf flags (some start)).value = some m ↔
      ∃ k, g.orbit flags start k = some m ∧ m.satisfiedBy flags = true ∧
        ∀ j < k, ∀ n, g.orbit flags start j = some n → n.satisfiedBy flags = false) ∧
    ((g.renderableOf flags (some start)).value = none ↔
      ∀ k n, g.orbit flags start k = some n → n.satisfiedBy flags = false) := by
  refine ⟨fun m => (renderableOf_eq_some h).trans opensAt_iff, ?_, ?_⟩
  · intro hnone k n hk
    by_contra hn
    obtain ⟨first, hfirst⟩ := exists_opensAt hk (by simpa using hn)
    exact absurd (hnone.symm.trans ((renderableOf_eq_some h).mpr hfirst)) (Option.some_ne_none _).symm
  · intro hgated
    cases hfound : (g.renderableOf flags (some start)).value with
    | none => rfl
    | some m =>
      obtain ⟨k, hk, hm, _⟩ := opensAt_iff.mp ((renderableOf_eq_some h).mp hfound)
      exact absurd ((hgated k m hk).symm.trans hm) Bool.false_ne_true

/-- A ring of three gated nodes, linked by branches and plain successors, that is left at its third node
unless the story is set to go round. -/
def gatedRing : Graph :=
  let shut : Conditions := [("key", .bool true)]
  { nodes :=
      [{ id := some "a", kind := .singleParagraph, conditions := shut,
         branches := [{ next := some "lost" }, { next := some "b" }] },
       { id := some "b", kind := .singleParagraph, conditions := shut, next := some "c" },
       { id := some "c", kind := .singleParagraph, conditions := shut, next := some "d",
         branches := [{ next := some "a", conditions := [("round", .bool true)] }] },
       { id := some "d", kind := .singleParagraph }] }

theorem renderableOf_gatedRing :
    ∃ a ∈ gatedRing.nodes, a.id = some "a" ∧ gatedRing.Alone a ∧
      (gatedRing.renderableOf [] (some a)).value = gatedRing.node? "d" := by
  refine ⟨_, List.mem_cons_self, rfl, ?_, ?_⟩
  · intro other h
    exact (Option.some.inj h).symm
  · refine ((renderableOf_first_of_orbit gatedRing [] _ ?_).1 _).mpr ⟨3, rfl, rfl, ?_⟩
    · intro other h
      exact (Option.some.inj h).symm
    · intro j hj n hn
      match j, hj with
      | 0, _ | 1, _ | 2, _ => exact Option.some.inj hn ▸ rfl

end Graph
end BranchingStory
