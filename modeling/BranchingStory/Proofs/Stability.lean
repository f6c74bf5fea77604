import BranchingStory.Proofs.Snapshot

/-!
# Snapshots are stable

What writing forgets it has forgotten already when it writes what was read back. So a snapshot that is
read and written over and over changes once at most, and then only in empty values: the graphics of
blocks, and what is empty inside their choices. That holds of every document that is accepted, in
either form, and of every block that is made from a node.
-/

namespace BranchingStory

/-! ## Written forms -/

theorem Prose.member_normal (name : String) (text : Prose) :
    memberIf (!text.normal.isEmpty) name text.normal.toJson = memberIf (!text.isEmpty) name text.toJson := by
  cases text with
  | single s => rfl
  | paragraphs ss =>
    cases ss with
    | nil => rfl
    | cons s rest => rfl

mutual
theorem Node.toJson_normal : (n : Node) → n.normal.toJson = n.toJson
  | ⟨id, kind, text, speaker, conditions, next, branches, effects, itemsAdded, itemsRemoved,
      notesAdded, ambience, sound, choices, graphic⟩ => by
    rw [Node.normal, Node.toJson, Node.toJson, nonEmpty?_nonEmpty?, nonEmpty?_nonEmpty?, nonEmpty?_nonEmpty?,
      Prose.member_normal, Node.choicesMember_allNormal choices]

theorem Choice.toJson_normal : (choice : Choice) → choice.normal.toJson = choice.toJson
  | ⟨text, next, effects, reactions⟩ => by
    rw [Choice.normal, Choice.toJson, Choice.toJson, nonEmpty?_nonEmpty?,
      Choice.reactionsMember_allNormal reactions]

theorem Node.choicesMember_allNormal : (choices : List Choice) →
    Node.choicesMember (Choice.allNormal choices) = Node.choicesMember choices
  | [] => rfl
  | choice :: choices => by
    rw [Choice.allNormal, Node.choicesMember, Node.choicesMember, Choice.toJson_normal choice,
      Choice.allToJson_allNormal choices]

theorem Choice.reactionsMember_allNormal : (nodes : List Node) →
    Choice.reactionsMember (Node.allNormal nodes) = Choice.reactionsMember nodes
  | [] => rfl
  | node :: nodes => by
    rw [Node.allNormal, Choice.reactionsMember, Choice.reactionsMember, Node.toJson_normal node,
      Node.allToJson_allNormal nodes]

theorem Choice.allToJson_allNormal : (choices : List Choice) →
    Choice.allToJson (Choice.allNormal choices) = Choice.allToJson choices
  | [] => rfl
  | choice :: choices => by
    rw [Choice.allNormal, Choice.allToJson, Choice.allToJson, Choice.toJson_normal choice,
      Choice.allToJson_allNormal choices]

theorem Node.allToJson_allNormal : (nodes : List Node) →
    Node.allToJson (Node.allNormal nodes) = Node.allToJson nodes
  | [] => rfl
  | node :: nodes => by
    rw [Node.allNormal, Node.allToJson, Node.allToJson, Node.toJson_normal node,
      Node.allToJson_allNormal nodes]
end

theorem Choice.allNormal_allNormal (choices : List Choice) :
    Choice.allNormal (Choice.allNormal choices) = Choice.allNormal choices := by
  have honce := Node.choiceItems_allToJson "" 0 choices
  have htwice := Node.choiceItems_allToJson "" 0 (Choice.allNormal choices)
  rw [Choice.allToJson_allNormal, honce] at htwice
  exact (Except.ok.inj htwice).symm

/-! ## Blocks -/

theorem Block.normal_normal (b : Block) : b.normal.normal = b.normal := by
  have hspeaker : Restoring.speakerOr (Restoring.speakerOr b.speaker b.frozen) b.frozen =
      Restoring.speakerOr b.speaker b.frozen := by
    cases hs : b.speaker with
    | some ref => rfl
    | none => cases h : b.frozen.bind Identity.id <;> simp [Restoring.speakerOr, h]
  have hchoices : (if b.isPrompt then Choice.allNormal (if b.isPrompt then Choice.allNormal b.choices else [])
      else []) = if b.isPrompt then Choice.allNormal b.choices else [] := by
    cases b.isPrompt with
    | true => exact Choice.allNormal_allNormal b.choices
    | false => rfl
  have hprompt : b.normal.isPrompt = b.isPrompt := rfl
  rw [Block.normal, hprompt]
  simp only [Block.normal, hspeaker, hchoices, nonEmpty?_nonEmpty?]

/-- The block without empty values: an empty graphic is missing, and so is what is empty in its choices. -/
def Block.tidied (b : Block) : Block :=
  { b with choices := Choice.allNormal b.choices, graphic := nonEmpty? b.graphic }

theorem Block.toJson_tidied (b : Block) : b.tidied.toJson = b.toJson := by
  have hprompt : b.tidied.isPrompt = b.isPrompt := rfl
  rw [Block.toJson, hprompt, Block.tidied, Choice.allToJson_allNormal, nonEmpty?_nonEmpty?]
  rfl

theorem Block.Proper.normal_eq_tidied {b : Block} (h : b.Proper) : b.normal = b.tidied := by
  have hchoices : (if b.isPrompt then Choice.allNormal b.choices else []) = Choice.allNormal b.choices := by
    cases hprompt : b.isPrompt with
    | true => rfl
    | false =>
      rw [h.choices hprompt]
      rfl
  rw [Block.normal, Block.tidied, Block.speakerOr_eq_self h.attributed, hchoices]

/-- A block that was made or read reads back from its written form, and is written alike again. -/
theorem Block.Proper.stable {b : Block} (h : b.Proper) (index : Nat) :
    (Restoring.block Node.choicesOf index b.toJson).result = .ok b.tidied ∧ b.tidied.toJson = b.toJson :=
  ⟨h.normal_eq_tidied ▸ Restoring.block_toJson index b, b.toJson_tidied⟩

/-! ## Histories -/

def History.tidied (h : History) : History := { h with blocks := h.blocks.map Block.tidied }

theorem History.snapshot_tidied (h : History) : h.tidied.snapshot = h.snapshot := by
  have hblocks : (latest h.bound (h.blocks.map Block.tidied)).map Block.toJson =
      (latest h.bound h.blocks).map Block.toJson := by
    rw [latest_map, List.map_map]
    exact List.map_congr_left fun b _ => b.toJson_tidied
  rw [History.snapshot, History.tidied, hblocks]
  rfl

/-- What was read from a document is written and read back without its empty values. -/
theorem History.ofSnapshot_tidied {g : Graph} {bound : Int} {payload : Json} {h : History}
    (hread : (History.ofSnapshot g bound payload).result = .ok h) :
    (History.ofSnapshot g bound (.object h.snapshot)).result = .ok h.tidied := by
  obtain ⟨current, blocks, hmake⟩ := History.exists_of_ofSnapshot_eq_ok hread
  obtain ⟨hbound, hh⟩ := History.make?_eq_some.mp hmake
  have hroom : h.bound = bound.toNat := by rw [hh]
  have hkept : latest h.bound h.blocks = h.blocks := by
    rw [hh]
    exact latest_eq_self (length_latest_le _ _)
  have hwaiting : (g.find? h.current).any Node.isPrompt = h.waiting := by rw [hh]
  have hblocks : h.blocks.map Block.normal = h.blocks.map Block.tidied := by
    apply List.map_congr_left
    intro b hb
    exact (History.proper_of_ofSnapshot hread b hb).normal_eq_tidied
  rw [History.ofSnapshot_snapshot g hbound hroom, hkept, hwaiting, hblocks]
  rfl

/-- Whatever document a history was read from, its snapshot reads back as that history, except that what
is empty in its blocks is missing, and the snapshot of this history is the same again. Each block that is
made from a node, showing nobody or whom its speaker stands for, reads back in this way as well. -/
theorem History.snapshot_stable (g : Graph) (bound : Int) :
    (∀ payload h, (History.ofSnapshot g bound payload).result = .ok h →
      (History.ofSnapshot g bound (.object h.snapshot)).result = .ok h.tidied ∧
      h.tidied.snapshot = h.snapshot) ∧
    ∀ n frozen, (frozen = none ∨
        ∃ cast isSet, frozen = (SpeakerRef.resolve n.speaker cast isSet).value) → ∀ index,
      (Restoring.block Node.choicesOf index (Block.ofNode n frozen).toJson).result = .ok (Block.ofNode n frozen).tidied ∧
      (Block.ofNode n frozen).tidied.toJson = (Block.ofNode n frozen).toJson := by
  constructor
  · intro payload h hread
    exact ⟨History.ofSnapshot_tidied hread, h.snapshot_tidied⟩
  · intro n frozen hfrozen index
    exact (Block.proper_ofNode hfrozen).stable index

def letterGraph : Graph := { nodes := [{ id := some "ask", kind := .dialogueChoice }] }

/-- A snapshot of an older writer, without a version and with empty values in all kinds of places. -/
def letterSnapshot : Json :=
  .object
    [("currentNodeId", .string "ask"),
     ("renderedBlocks", .array
       [.object
          [("type", .string "characterDialogue"), ("graphic", .string ""),
           ("_frozenCharacter", .object [("id", .string "mara"), ("name", .string "Mara")])],
        .object
          [("id", .string "ask"), ("type", .string "dialogueChoice"),
           ("choices", .array
             [.object
               [("text", .string "Read it"), ("next", .string ""),
                ("reaction", .array
                  [.object
                    [("id", .string ""), ("type", .string "multipleParagraphs"), ("text", .array []),
                     ("nextIf", .array [.object [("next", .string "")]])]])]])]])]

def letterHistory : History :=
  { current := some "ask"
    blocks :=
      [{ id := none, kind := .characterDialogue, text := .single "", speaker := some (.named "mara"),
         frozen := some ⟨some "mara", "Mara", ""⟩, graphic := some "" },
       { id := some "ask", kind := .dialogueChoice, text := .single "",
         choices :=
           [{ text := "Read it", next := some "",
              reactions :=
                [{ id := some "", kind := .multipleParagraphs, text := .paragraphs [],
                   branches := [{ next := some "" }] }] }] }]
    waiting := true
    bound := 2 }

def letterLine : Node := { kind := .characterDialogue, speaker := some (.named "mara"), graphic := some "" }

theorem letterHistory_snapshot_stable :
    (History.ofSnapshot letterGraph 2 letterSnapshot).result = .ok letterHistory ∧
      (History.ofSnapshot letterGraph 2 (.object letterHistory.snapshot)).result = .ok letterHistory.tidied ∧
      letterHistory.tidied.snapshot = letterHistory.snapshot ∧
      (Restoring.block Node.choicesOf 0 (Block.ofNode letterLine (some ⟨some "mara", "???", ""⟩)).toJson).result =
        .ok (Block.ofNode letterLine (some ⟨some "mara", "???", ""⟩)).tidied := by
  have hread : (History.ofSnapshot letterGraph 2 letterSnapshot).result = .ok letterHistory := rfl
  have hresolve : some ⟨some "mara", "???", ""⟩ =
      (SpeakerRef.resolve letterLine.speaker [] fun _ => false).value := rfl
  obtain ⟨hdocuments, hblocks⟩ := History.snapshot_stable letterGraph 2
  obtain ⟨hback, hagain⟩ := hdocuments letterSnapshot letterHistory hread
  exact ⟨hread, hback, hagain, (hblocks letterLine _ (.inr ⟨[], _, hresolve⟩) 0).1⟩

end BranchingStory
