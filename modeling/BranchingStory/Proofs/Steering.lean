import BranchingStory.Proofs.Consistency

/-!
# What steers a story

Where a choice leads is settled by the graph, the position, the target of the choice and the flags that
conditions of the graph mention, with the effects of the choice set on top of them. The reactions are
carried out on the very flags the walk would read, so they could turn a branch; they do not, because the
walk reads the flags as they are before any reaction. What is read is therefore traced through the walk:
each step looks at flags only through conditions of nodes that the graph can find, so two flag stores
that agree on the mentioned flags take it the same way, gates and cycles included.
-/

namespace BranchingStory

namespace Assoc

variable {α : Type} {P : String → Prop}

/-- The maps have the same values under all names with the property. -/
def AgreeOn (P : String → Prop) (m other : Assoc α) : Prop := ∀ name, P name → get? m name = get? other name

theorem get?_overlay (m new : Assoc α) (name : String) :
    get? (overlay m new) name = (get? (ofPairs new) name).or (get? m name) := by
  induction new generalizing m with
  | nil => rfl
  | cons entry rest ih =>
    have hwrite : ∀ base : Assoc α, overlay base (entry :: rest) = overlay (insert base entry.1 entry.2) rest :=
      fun _ => rfl
    rw [ofPairs, hwrite, hwrite, ih, ih (insert [] entry.1 entry.2), get?_insert, get?_insert, Option.or_assoc]
    split <;> rfl

theorem AgreeOn.overlay {m other new changed : Assoc α} (h : AgreeOn P m other)
    (hnew : AgreeOn P (ofPairs new) (ofPairs changed)) :
    AgreeOn P (overlay m new) (overlay other changed) := by
  intro name hname
  rw [get?_overlay, get?_overlay, hnew name hname, h name hname]

end Assoc

/-! ## The flags that a graph looks at -/

/-- Some condition of the node or of one of its branches is about the flag. -/
def Node.Mentions (n : Node) (flag : String) : Prop :=
  flag ∈ Assoc.keys n.conditions ∨ ∃ branch ∈ n.branches, flag ∈ Assoc.keys branch.conditions

/-- Some node that the graph can find mentions the flag. -/
def Graph.Mentions (g : Graph) (flag : String) : Prop := ∃ id n, g.find? id = some n ∧ n.Mentions flag

theorem Flags.meet_congr {flags held : Flags} {conditions : Conditions}
    (h : Assoc.AgreeOn (· ∈ Assoc.keys conditions) flags held) :
    flags.meet conditions = held.meet conditions := by
  rw [Bool.eq_iff_iff, meet_iff, meet_iff]
  have hget : ∀ entry ∈ conditions, Assoc.get? flags entry.1 = Assoc.get? held entry.1 :=
    fun entry hentry => h entry.1 (List.mem_map_of_mem hentry)
  constructor <;> intro hmet entry hentry
  · rw [← hget entry hentry]
    exact hmet entry hentry
  · rw [hget entry hentry]
    exact hmet entry hentry

namespace Graph

variable {g : Graph} {flags held : Flags}

theorem satisfiedBy_congr {n : Node} (h : Assoc.AgreeOn n.Mentions flags held) :
    n.satisfiedBy flags = n.satisfiedBy held :=
  Flags.meet_congr fun flag hflag => h flag (.inl hflag)

theorem branchTarget_congr {source : Option String} {branches : List Branch}
    (h : ∀ branch ∈ branches, Assoc.AgreeOn (· ∈ Assoc.keys branch.conditions) flags held) :
    g.branchTarget flags source branches = g.branchTarget held source branches := by
  induction branches with
  | nil => rfl
  | cons branch branches ih =>
    have hmeet := Flags.meet_congr (h branch List.mem_cons_self)
    have hrest := ih fun other hother => h other (List.mem_cons_of_mem _ hother)
    rw [branchTarget, branchTarget, hmeet, hrest]

/-- A walk that no branch takes on and whose plain successor is there stops at it or walks through it. -/
theorem next_of_node? {n target : Node} {seen : Seen} {id : String} (hseen : n.id ∉ seen)
    (hnone : (g.branchTarget flags n.id n.branches).value = none) (hnext : nonEmpty? n.next = some id)
    (htarget : g.node? id = some target) :
    g.next flags n seen =
      if target.satisfiedBy flags then
        ⟨⟨target.id, n.id :: seen⟩, (g.branchTarget flags n.id n.branches).notices⟩
      else
        ⟨(g.next flags target (n.id :: seen)).value, (g.branchTarget flags n.id n.branches).notices ++
          (g.next flags target (n.id :: seen)).notices⟩ := by
  rw [next, if_neg hseen]
  simp only [hnone, hnext]
  split
  · rename_i hmissing
    exact absurd (hmissing.symm.trans htarget) (Option.some_ne_none target).symm
  · rename_i found hfound
    obtain rfl : target = found := Option.some.inj (htarget.symm.trans hfound)
    rfl

/-- From a node of the graph the walk goes the same way, with the same notices and the same memory. -/
theorem next_congr (h : Assoc.AgreeOn g.Mentions flags held) {n : Node} (hn : g.find? n.id = some n)
    (seen : Seen) : g.next flags n seen = g.next held n seen := by
  have hmentions : ∀ m, g.find? m.id = some m → Assoc.AgreeOn m.Mentions flags held :=
    fun m hm flag hflag => h flag ⟨m.id, m, hm, hflag⟩
  have hbranched : ∀ m, g.find? m.id = some m →
      g.branchTarget held m.id m.branches = g.branchTarget flags m.id m.branches := by
    intro m hm
    refine (branchTarget_congr fun branch hbranch flag hflag => ?_).symm
    exact hmentions m hm flag (.inr ⟨branch, hbranch, hflag⟩)
  fun_induction g.next flags n seen with
  | case1 n seen hseen => rw [next, if_pos hseen]
  | case2 n seen hseen branched target htarget =>
    have hvalue : (g.branchTarget flags n.id n.branches).value = some target := htarget
    simp [next, hseen, hbranched n hn, hvalue, branched]
  | case3 n seen hseen branched hnone hnext =>
    have hvalue : (g.branchTarget flags n.id n.branches).value = none := hnone
    simp [next, hseen, hbranched n hn, hvalue, hnext, branched]
  | case4 n seen hseen branched hnone id hnext hmissing =>
    have hvalue : (g.branchTarget flags n.id n.branches).value = none := hnone
    rw [next, if_neg hseen, hbranched n hn]
    simp only [hvalue, hnext]
    split
    · rfl
    · rename_i target htarget
      exact absurd (hmissing.symm.trans htarget) (Option.some_ne_none target).symm
  | case5 n seen hseen branched hnone id hnext target htarget hmet =>
    have hheld : target.satisfiedBy held = true :=
      (satisfiedBy_congr (hmentions target (find?_id_of_node? htarget))).symm.trans hmet
    rw [next_of_node? hseen ((congrArg Told.value (hbranched n hn)).trans hnone) hnext htarget, if_pos hheld,
      hbranched n hn]
  | case6 n seen hseen branched hnone id hnext target htarget hmet rest ih =>
    have hfind : g.find? target.id = some target := find?_id_of_node? htarget
    have hheld : ¬ target.satisfiedBy held = true :=
      fun hheld => hmet ((satisfiedBy_congr (hmentions target hfind)).trans hheld)
    rw [next_of_node? hseen ((congrArg Told.value (hbranched n hn)).trans hnone) hnext htarget, if_neg hheld,
      hbranched n hn, ← ih hfind]

theorem nextOf_congr (h : Assoc.AgreeOn g.Mentions flags held) (id : Option String) :
    g.nextOf flags (g.find? id) = g.nextOf held (g.find? id) := by
  cases hn : g.find? id with
  | none => rfl
  | some n => rw [nextOf, nextOf, next_congr h (find?_id hn)]

end Graph

/-! ## Choices that lead to one place -/

namespace Play

variable {p q : Play} {a b : Choice}

theorem chosenNode_congr (hgraph : p.script.graph = q.script.graph)
    (hcurrent : p.history.current = q.history.current)
    (hflags : Assoc.AgreeOn q.script.graph.Mentions p.world.flags q.world.flags) (hnext : a.next = b.next)
    (heffects : Assoc.AgreeOn q.script.graph.Mentions (Flags.setAll [] a.effects) (Flags.setAll [] b.effects)) :
    p.chosenNode a = q.chosenNode b := by
  have hview : Assoc.AgreeOn q.script.graph.Mentions (p.world.flags.setAll a.effects)
      (q.world.flags.setAll b.effects) := hflags.overlay heffects
  rw [chosenNode, chosenNode, choiceTarget, choiceTarget, hnext, node?, node?, hgraph, hcurrent,
    Graph.nextOf_congr hview]

/-- Two plays wait at the same position of one graph, and their flags agree wherever a condition of the
graph looks. Two choices with the same target and the same effects on those flags lead them to the same
place, whatever the choices say, whatever reactions they carry and whatever the reactions do. -/
theorem choose_same_place (hgraph : p.script.graph = q.script.graph)
    (hcurrent : p.history.current = q.history.current)
    (hp : p.history.waiting = true) (hq : q.history.waiting = true)
    (hflags : Assoc.AgreeOn q.script.graph.Mentions p.world.flags q.world.flags) (hnext : a.next = b.next)
    (heffects : Assoc.AgreeOn q.script.graph.Mentions (Flags.setAll [] a.effects) (Flags.setAll [] b.effects)) :
    (p.choose a).fault = none ∧ (q.choose b).fault = none ∧
      (p.choose a).play.history.current = (q.choose b).play.history.current ∧
      (p.choose a).play.history.waiting = (q.choose b).play.history.waiting ∧
      (p.choose a).play.history.isEnded = (q.choose b).play.history.isEnded := by
  have hnode : p.chosenNode a = q.chosenNode b := chosenNode_congr hgraph hcurrent hflags hnext heffects
  have hplace : (p.chosen a).history.current = (q.chosen b).history.current := by
    rw [chosen, chosen, History.follow_current, History.follow_current, hnode]
  refine ⟨choose_fault a, choose_fault b, ?_⟩
  rw [(choose_of_waiting a hp).1, (choose_of_waiting b hq).1]
  refine ⟨hplace, ?_, congrArg Option.isNone hplace⟩
  rw [chosen, chosen, History.follow_waiting, History.follow_waiting, hnode]

/-- A prompt whose branch hangs on the mood and whose plain way leads through a gate. -/
def moodGraph : Graph :=
  { nodes :=
      [{ id := some "ask", kind := .dialogueChoice, next := some "gate",
         branches := [{ next := some "garden", conditions := [("mood", .text "calm")] }] },
       { id := some "garden", kind := .singleParagraph },
       { id := some "gate", kind := .singleParagraph, next := some "street",
         conditions := [("key", .bool true)] },
       { id := some "street", kind := .singleParagraph, next := some "ask" }] }

theorem moodGraph_mentions {flag : String} (h : moodGraph.Mentions flag) : flag = "mood" ∨ flag = "key" := by
  obtain ⟨_, n, hn, hmentions⟩ := h
  have hmem := Graph.mem_of_find? hn
  simp only [moodGraph, List.mem_cons, List.not_mem_nil, or_false] at hmem
  rcases hmem with rfl | rfl | rfl | rfl
  · exact .inl (by simpa [Node.Mentions, Assoc.keys] using hmentions)
  · simp [Node.Mentions, Assoc.keys] at hmentions
  · exact .inr (by simpa [Node.Mentions, Assoc.keys] using hmentions)
  · simp [Node.Mentions, Assoc.keys] at hmentions

def moodPlay (blocks : List Block) (bound : Nat) (flags : Flags) : Play :=
  { script := { graph := moodGraph, bound }
    history := ⟨some "ask", blocks, true, bound⟩
    world := { flags, items := { kind := .items }, notes := { kind := .notes } } }

def soothing : Choice :=
  { text := "Breathe", effects := [("key", .bool false), ("breath", .bool true)],
    reactions := [{ kind := .singleParagraph, effects := [("mood", .text "calm"), ("key", .bool true)] }] }

def terse : Choice :=
  { text := "Go", effects := [("key", .bool true), ("steps", .number (.int 2)), ("key", .bool false)] }

/-- The reaction opens both the garden and the gate, and yet both answers lead into the street. -/
theorem moodPlay_same_place :
    let p := moodPlay [] 1 [("mood", .string "tense")]
    let q := moodPlay [Block.ofNode (speech terse)] 10 [("rain", .bool true), ("mood", .string "tense")]
    ((p.world.applyEffects soothing.effects).value.applyAll soothing.reactions).value.flags.meet
        [("mood", .text "calm"), ("key", .bool true)] = true ∧
      (p.choose soothing).play.history.current = (q.choose terse).play.history.current ∧
      (q.choose terse).play.history.current = some "street" := by
  intro p q
  have hflags : Assoc.AgreeOn q.script.graph.Mentions p.world.flags q.world.flags := by
    intro flag hflag
    rcases moodGraph_mentions hflag with rfl | rfl <;> rfl
  have heffects : Assoc.AgreeOn q.script.graph.Mentions (Flags.setAll [] soothing.effects)
      (Flags.setAll [] terse.effects) := by
    intro flag hflag
    rcases moodGraph_mentions hflag with rfl | rfl <;> rfl
  have hplace := choose_same_place (p := p) (q := q) (a := soothing) (b := terse) rfl rfl rfl rfl hflags rfl
    heffects
  exact ⟨by decide +kernel, hplace.2.2.1, by decide +kernel⟩

end Play
end BranchingStory
