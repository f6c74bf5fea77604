import BranchingStory.Proofs.Mirror
import BranchingStory.Proofs.Stability

/-!
# Snapshots of the older form

An older snapshot names recent nodes by id where a present one writes out their blocks. The two are read
by different routes: the ids are looked up in the graph first and what is too old is dropped from the
history afterwards, while of the written blocks only the latest are read at all. Entries that name no node
count on neither side, since nothing is made of them before anything is dropped. So both routes come to
the same blocks, and plays that are restored from them go on alike.
-/

namespace BranchingStory

/-- The nodes that a list of recent ids names, in order; other entries name none. -/
def Graph.recentNodes (g : Graph) (recent : List Json) : List Node :=
  recent.filterMap fun
    | .string id => g.node? id
    | _ => none

/-- The history at a position, which may be missing, with the blocks of recent nodes. -/
def History.ofRecent (g : Graph) (bound : Nat) (position : Option (Option String)) (recent : List Json) :
    History where
  current := position.getD g.entry
  blocks := latest bound ((g.recentNodes recent).map fun n => Block.ofNode n)
  waiting := (g.find? (position.getD g.entry)).any Node.isPrompt
  bound := bound

/-- A snapshot without a version and without blocks, with a list of recent ids. -/
structure OlderForm (members : Assoc Json) (position : Option (Option String)) (recent : List Json) :
    Prop where
  position : Assoc.get? members "currentNodeId" = position.map Json.ofString?
  version : Reading.field members "version" = .null
  blocks : Assoc.contains members "renderedBlocks" = false
  recent : Reading.field members "recentNodeIds" = .array recent

/-- A snapshot of the present version in which the blocks are written out. -/
structure PresentForm (members : Assoc Json) (position : Option (Option String)) (blocks : List Block) :
    Prop where
  position : Assoc.get? members "currentNodeId" = position.map Json.ofString?
  version : Reading.field members "version" = .int snapshotVersion
  blocks : Reading.field members "renderedBlocks" = .array (blocks.map Block.toJson)

/-! ## Reading both forms -/

namespace Restoring

variable {g : Graph} {members : Assoc Json} {position : Option (Option String)} {recent : List Json}

theorem position_eq_ok (h : Assoc.get? members "currentNodeId" = position.map Json.ofString?) :
    (Restoring.position g members).result = .ok (position.getD g.entry) := by
  rw [Restoring.position, h]
  rcases position with _ | _ | id <;> rfl

theorem recentBlocks_eq_ok (g : Graph) (recent : List Json) :
    (recentBlocks g recent).result = .ok ((g.recentNodes recent).map fun n => Block.ofNode n) := by
  induction recent with
  | nil => rfl
  | cons item recent ih =>
    have hdropped : (do
        Attempt.tell (.historyEntryDropped item)
        recentBlocks g recent : Restoring (List Block)).result =
          .ok ((g.recentNodes recent).map fun n => Block.ofNode n) :=
      Attempt.result_bind_eq_ok.mpr ⟨(), rfl, ih⟩
    cases item with
    | string id =>
      cases hn : g.node? id with
      | none => simpa [recentBlocks, Graph.recentNodes, hn] using hdropped
      | some n =>
        have hkept : (do return Block.ofNode n :: (← recentBlocks g recent) : Restoring (List Block)).result =
            .ok (Block.ofNode n :: (g.recentNodes recent).map fun n => Block.ofNode n) :=
          Attempt.result_bind_eq_ok.mpr ⟨_, ih, rfl⟩
        simpa [recentBlocks, Graph.recentNodes, hn] using hkept
    | _ => simpa [recentBlocks, Graph.recentNodes] using hdropped

theorem historyBlocks_older (h : OlderForm members position recent) (bound : Int) :
    (historyBlocks Node.choicesOf g bound members).result = .ok ((g.recentNodes recent).map fun n => Block.ofNode n) := by
  simpa [historyBlocks, h.version, h.blocks, h.recent] using recentBlocks_eq_ok g recent

theorem historyBlocks_present {blocks : List Block} (h : PresentForm members position blocks) {bound : Int}
    (hbound : 1 ≤ bound) :
    (historyBlocks Node.choicesOf g bound members).result = .ok ((latest bound.toNat blocks).map Block.normal) := by
  have hread := blocks_toJson 0 (latest bound.toNat blocks)
  rw [← latest_map, ← kept_of_pos hbound] at hread
  rw [historyBlocks, h.version]
  refine Attempt.result_bind_eq_ok.mpr ⟨(), rfl, ?_⟩
  rw [h.blocks]
  exact hread

end Restoring

theorem Block.map_normal_ofNode (nodes : List Node) :
    (nodes.map fun n => Block.ofNode n).map Block.normal =
      (nodes.map fun n => Block.ofNode n).map Block.tidied := by
  simp only [List.map_map]
  exact List.map_congr_left fun n _ => (Block.proper_ofNode (.inl rfl)).normal_eq_tidied

namespace History

variable {g : Graph} {bound : Int} {members : Assoc Json} {position : Option (Option String)}
  {recent : List Json}

/-- The older form gives the blocks of the latest nodes that are named, at the position. -/
theorem ofSnapshot_older (h : OlderForm members position recent) (hbound : 1 ≤ bound) :
    (ofSnapshot g bound (.object members)).result = .ok (ofRecent g bound.toNat position recent) :=
  ofSnapshot_object_eq_ok.mpr ⟨_, _, Restoring.position_eq_ok h.position, Restoring.historyBlocks_older h bound,
    make?_eq_some.mpr ⟨hbound, rfl⟩⟩

/-- The present form with the blocks of those nodes gives the same history without its empty values. -/
theorem ofSnapshot_present
    (h : PresentForm members position ((g.recentNodes recent).map fun n => Block.ofNode n)) (hbound : 1 ≤ bound) :
    (ofSnapshot g bound (.object members)).result = .ok (ofRecent g bound.toNat position recent).tidied := by
  refine ofSnapshot_object_eq_ok.mpr ⟨_, _, Restoring.position_eq_ok h.position,
    Restoring.historyBlocks_present h hbound, make?_eq_some.mpr ⟨hbound, ?_⟩⟩
  rw [← latest_map, latest_latest le_rfl, Block.map_normal_ofNode, tidied, latest_map]
  rfl

end History

/-! ## Going on from both forms -/

namespace Play

variable {p q : Play} {g : Graph} {bound : Int} {older present : Assoc Json}
  {position : Option (Option String)} {recent : List Json}

/-- Plays that take over a history and the same one without its empty values agree on all that decides
where their moves lead. -/
theorem Parallels.of_tidied {h : History} (hgraph : p.script.graph = q.script.graph)
    (hflags : p.world.flags = q.world.flags) (hp : p.history = h) (hq : q.history = h.tidied) :
    p.Parallels q := by
  have hids : h.tidied.blocks.map Block.id = h.blocks.map Block.id := by
    rw [History.tidied, List.map_map]
    rfl
  refine ⟨hgraph, ?_, ?_, ?_, ?_, hflags⟩ <;> rw [hp, hq]
  · rfl
  · rfl
  · rfl
  · exact hids.symm

/-- Reading a snapshot of the older form comes to what reading the present form comes to, with the blocks
of the named nodes written out, except for empty values. Plays with equal flags that are restored from
the two stand alike, and by whatever moves and changes of flags they go on alike. -/
theorem restore_older_eq_present (hbound : 1 ≤ bound) (holder : OlderForm older position recent)
    (hpresent : PresentForm present position ((g.recentNodes recent).map fun n => Block.ofNode n)) :
    (History.ofSnapshot g bound (.object older)).result = .ok (.ofRecent g bound.toNat position recent) ∧
    (History.ofSnapshot g bound (.object present)).result =
      .ok (History.ofRecent g bound.toNat position recent).tidied ∧
    ∀ p q : Play, p.script.graph = g → q.script.graph = g → p.script.bound = bound → q.script.bound = bound →
      p.world.flags = q.world.flags →
      (p.restore (.object older)).fault = none ∧ (q.restore (.object present)).fault = none ∧
      (p.restore (.object older)).play.StayAlike (q.restore (.object present)).play := by
  have hreadOlder := History.ofSnapshot_older (g := g) holder hbound
  have hreadPresent := History.ofSnapshot_present hpresent hbound
  refine ⟨hreadOlder, hreadPresent, ?_⟩
  rintro p q rfl hgraph rfl hroom hflags
  rw [← hgraph, ← hroom] at hreadPresent
  obtain ⟨hpfault, _, hpplay⟩ := restore_of_ok hreadOlder
  obtain ⟨hqfault, _, hqplay⟩ := restore_of_ok hreadPresent
  refine ⟨hpfault, hqfault, Parallels.stayAlike ?_⟩
  rw [hpplay, hqplay]
  refine Parallels.of_tidied hgraph.symm hflags rfl ?_
  rw [hgraph, hroom]

/-- A ferry that is asked for. The prompt has an empty graphic, and its answer an empty target. -/
def ferryGraph : Graph :=
  { nodes :=
      [{ id := some "bank", kind := .singleParagraph, next := some "ask" },
       { id := some "ask", kind := .dialogueChoice, graphic := some "", next := some "boat",
         choices := [{ text := "Call", next := some "", effects := [("called", .bool true)] }] },
       { id := some "boat", kind := .singleParagraph, conditions := [("called", .bool true)],
         next := some "ask" }] }

def ferryRecent : List Json :=
  [.string "bank", .string "pier", .string "boat", .null, .string "", .int 3, .string "bank", .array [],
   .string "ask", .object []]

def ferryOlder : Assoc Json := [("currentNodeId", .string "ask"), ("recentNodeIds", .array ferryRecent)]

def ferryPresent : Assoc Json :=
  [("version", .int 1), ("currentNodeId", .string "ask"),
   ("renderedBlocks", .array (((ferryGraph.recentNodes ferryRecent).map fun n => Block.ofNode n).map Block.toJson))]

def ferryPlay (held : List String) : Play :=
  { script := { graph := ferryGraph, bound := 2 }
    history := ⟨some "bank", [], false, 2⟩
    world := { items := { kind := .items, held }, notes := { kind := .notes } } }

theorem ferryPlay_restore :
    (History.ofRecent ferryGraph 2 (some (some "ask")) ferryRecent).blocks.map Block.id =
        [some "bank", some "ask"] ∧
      (History.ofSnapshot ferryGraph 2 (.object ferryOlder)).result =
        .ok (.ofRecent ferryGraph 2 (some (some "ask")) ferryRecent) ∧
      (History.ofSnapshot ferryGraph 2 (.object ferryPresent)).result =
        .ok (History.ofRecent ferryGraph 2 (some (some "ask")) ferryRecent).tidied ∧
      ((ferryPlay ["coin"]).restore (.object ferryOlder)).play.StayAlike
        ((ferryPlay []).restore (.object ferryPresent)).play := by
  have holder : OlderForm ferryOlder (some (some "ask")) ferryRecent := ⟨rfl, rfl, rfl, rfl⟩
  have hpresent : PresentForm ferryPresent (some (some "ask"))
      ((ferryGraph.recentNodes ferryRecent).map fun n => Block.ofNode n) := ⟨rfl, rfl, rfl⟩
  obtain ⟨hreadOlder, hreadPresent, hplays⟩ :=
    restore_older_eq_present (g := ferryGraph) (by decide : (1 : Int) ≤ 2) holder hpresent
  obtain ⟨_, _, halike⟩ := hplays (ferryPlay ["coin"]) (ferryPlay []) rfl rfl rfl rfl rfl
  exact ⟨by decide +kernel, hreadOlder, hreadPresent, halike⟩

end Play
end BranchingStory
