import BranchingStory.Proofs.Reread

/-!
# Snapshots read back

A snapshot is read by reading its position and its blocks. What a history has written reads back as
that history, with its blocks in their written form and the pending choice found in the graph again.
-/

namespace BranchingStory

theorem History.make?_eq_some {current : Option String} {blocks : List Block} {waiting : Bool}
    {bound : Int} {h : History} :
    History.make? current blocks waiting bound = some h ↔
      1 ≤ bound ∧ h = ⟨current, latest bound.toNat blocks, waiting, bound.toNat⟩ := by
  unfold History.make?
  by_cases hb : bound < 1
  · rw [if_pos hb]
    exact ⟨fun heq => absurd heq.symm (Option.some_ne_none h), fun heq => absurd heq.1 (by omega)⟩
  · simp only [if_neg hb, Option.some.injEq]
    exact ⟨fun heq => ⟨by omega, heq.symm⟩, fun heq => heq.2.symm⟩

theorem History.make?_nil_eq_some {current : Option String} {waiting : Bool} {bound : Int} {h : History} :
    History.make? current [] waiting bound = some h ↔ 1 ≤ bound ∧ h = ⟨current, [], waiting, bound.toNat⟩ := by
  rw [History.make?_eq_some, latest_eq_self (Nat.zero_le _)]

theorem History.ofSnapshot_object_eq_ok {g : Graph} {bound : Int} {members : Assoc Json} {h : History} :
    (History.ofSnapshot g bound (.object members)).result = .ok h ↔
      ∃ current blocks, (Restoring.position g members).result = .ok current ∧
        (Restoring.historyBlocks Node.choicesOf g bound members).result = .ok blocks ∧
        History.make? current blocks ((g.find? current).any Node.isPrompt) bound = some h := by
  unfold History.ofSnapshot History.ofSnapshotBy
  rw [Attempt.result_bind_eq_ok]
  refine exists_congr fun current => ?_
  rw [Attempt.result_bind_eq_ok, ← exists_and_left]
  refine exists_congr fun blocks => and_congr_right fun _ => and_congr_right fun _ => ?_
  rw [Attempt.result_bind]
  cases History.make? current blocks ((g.find? current).any Node.isPrompt) bound with
  | none => simp [bind, Except.bind]
  | some made => simp [bind, Except.bind]

theorem History.exists_of_ofSnapshot_eq_ok {g : Graph} {bound : Int} {snapshot : Json} {h : History}
    (hread : (History.ofSnapshot g bound snapshot).result = .ok h) :
    ∃ current blocks,
      History.make? current blocks ((g.find? current).any Node.isPrompt) bound = some h := by
  cases snapshot with
  | object members =>
    obtain ⟨current, blocks, _, _, hmake⟩ := History.ofSnapshot_object_eq_ok.mp hread
    exact ⟨current, blocks, hmake⟩
  | _ => exact absurd hread (by simp [History.ofSnapshot, History.ofSnapshotBy, Restoring.refuse])

/-! ## Blocks -/

/-- The block that is read back: empty values are missing, and only a prompt keeps its choices. -/
def Block.normal (b : Block) : Block :=
  { b with
    speaker := Restoring.speakerOr b.speaker b.frozen
    choices := if b.isPrompt then Choice.allNormal b.choices else []
    graphic := nonEmpty? b.graphic }

namespace Restoring

open Reading

theorem optionalString_ofString? (fault : SnapshotFault) (s : Option String) :
    (Restoring.optionalString fault (Json.ofString? s)).result = .ok s := by
  cases s <;> rfl

theorem prose_toJson (index : Nat) (text : Prose) : (Restoring.prose index text.toJson).result = .ok text := by
  cases text <;> simp [Prose.toJson, Json.strings, Restoring.prose]

theorem identityTexts_strings (index : Nat) (id : Option String) (name portrait : String) :
    (identityTexts index id (.string name) (.string portrait)).result = .ok ⟨id, name, portrait⟩ := by
  by_cases h : portrait = ""
  · subst h
    rfl
  · have hset : (Json.string portrait).isSet = true := bne_iff_ne.mpr h
    rw [identityTexts, if_pos hset]
    rfl

theorem identity_toJson (index : Nat) (frozen : Option Identity) :
    (Restoring.identity index (frozen.elim .null Identity.toJson)).result = .ok frozen := by
  cases frozen with
  | none => rfl
  | some i =>
    obtain ⟨id, name, portrait⟩ := i
    refine Attempt.result_bind_eq_ok.mpr ⟨id, optionalString_ofString? _ id, ?_⟩
    refine Attempt.result_bind_eq_ok.mpr ⟨⟨id, name, portrait⟩, ?_, rfl⟩
    exact identityTexts_strings index id name portrait

theorem ofReading_eq_ok {α : Type} {x : Reading α} {a : α} (h : x.result = .ok a) :
    (ofReading x).result = .ok a := by
  rw [ofReading, Attempt.result_mapError, h]
  rfl

theorem kind_name (index : Nat) (kind : NodeKind) :
    (Restoring.kind index (.string kind.name)).result = .ok kind := by
  rw [Restoring.kind, NodeKind.ofName?_name]
  rfl

theorem eq_name_of_kind {index : Nat} {j : Json} {kind : NodeKind}
    (h : (Restoring.kind index j).result = .ok kind) : j = .string kind.name := by
  cases j with
  | string s =>
    rw [Restoring.kind] at h
    split at h
    · rename_i found hfound
      obtain rfl := Except.ok.inj h
      have hfind : NodeKind.all.find? (fun kind => kind.name == s) = some found := hfound
      have hname := List.find?_some hfind
      rw [beq_iff_eq.mp hname]
    · cases h
  | _ => cases h

theorem choices_allToJson (index : Nat) (b : Block) :
    (Restoring.choices Node.choicesOf index b.kind
      ((if b.isPrompt then some (Json.array (Choice.allToJson b.choices)) else none).getD .null)).result =
        .ok (if b.isPrompt then Choice.allNormal b.choices else []) := by
  cases h : b.isPrompt with
  | true =>
    have hkind : b.kind = .dialogueChoice := beq_iff_eq.mp h
    simp only [↓reduceIte, Option.getD_some, Restoring.choices, if_pos hkind]
    exact ofReading_eq_ok (Node.choiceItems_allToJson _ 0 b.choices)
  | false => rfl

theorem block_toJson (index : Nat) (b : Block) : (Restoring.block Node.choicesOf index b.toJson).result = .ok b.normal := by
  refine Attempt.result_bind_eq_ok.mpr ⟨b.id, optionalString_ofString? _ b.id, ?_⟩
  refine Attempt.result_bind_eq_ok.mpr ⟨b.kind, kind_name index b.kind, ?_⟩
  refine Attempt.result_bind_eq_ok.mpr ⟨b.text, prose_toJson index b.text, ?_⟩
  refine Attempt.result_bind_eq_ok.mpr ⟨b.frozen, identity_toJson index b.frozen, ?_⟩
  have hspeaker := speaker_optionToJson (blockPlace index ++ ".character") b.speaker
  refine Attempt.result_bind_eq_ok.mpr ⟨b.speaker, ofReading_eq_ok hspeaker, ?_⟩
  refine Attempt.result_bind_eq_ok.mpr ⟨_, ?hchoices, Attempt.result_bind_eq_ok.mpr ⟨_, ?hgraphic, rfl⟩⟩ <;>
    simp only [field, Assoc.get?, Assoc.get?_append, Assoc.get?_member?, Assoc.get?_memberIf,
      String.reduceEq, ↓reduceIte, Option.or_none, Option.none_or]
  case hchoices => exact choices_allToJson index b
  case hgraphic =>
    cases nonEmpty? b.graphic <;> rfl

theorem blocks_toJson (index : Nat) (bs : List Block) :
    (Restoring.blocks Node.choicesOf index (bs.map Block.toJson)).result = .ok (bs.map Block.normal) := by
  induction bs generalizing index with
  | nil => rfl
  | cons b bs ih =>
    refine Attempt.result_bind_eq_ok.mpr ⟨b.normal, block_toJson index b, ?_⟩
    exact Attempt.result_bind_eq_ok.mpr ⟨bs.map Block.normal, ih (index + 1), rfl⟩

theorem kept_of_pos {α : Type} {bound : Int} (h : 1 ≤ bound) (items : List α) :
    kept bound items = latest bound.toNat items := if_pos (by omega)

theorem position_snapshot (g : Graph) (h : History) :
    (Restoring.position g h.snapshot).result = .ok h.current := by
  obtain ⟨current, blocks, waiting, bound⟩ := h
  cases current <;> rfl

theorem historyBlocks_snapshot (g : Graph) {bound : Int} (hbound : 1 ≤ bound) (h : History) :
    (Restoring.historyBlocks Node.choicesOf g bound h.snapshot).result =
      .ok ((latest bound.toNat (latest h.bound h.blocks)).map Block.normal) := by
  have hkept : kept bound ((latest h.bound h.blocks).map Block.toJson) =
      (latest bound.toNat (latest h.bound h.blocks)).map Block.toJson := by
    rw [kept_of_pos hbound, latest_map]
  have hblocks := blocks_toJson 0 (latest bound.toNat (latest h.bound h.blocks))
  rw [← hkept] at hblocks
  refine Attempt.result_bind_eq_ok.mpr ⟨(), rfl, ?_⟩
  exact hblocks

end Restoring

/-- What a history has written reads back over any graph and with any room, as far as there is room. -/
theorem History.ofSnapshot_snapshot_latest (g : Graph) {bound : Int} (hbound : 1 ≤ bound) (h : History) :
    (History.ofSnapshot g bound (.object h.snapshot)).result =
      .ok { current := h.current
            blocks := (latest bound.toNat (latest h.bound h.blocks)).map Block.normal
            waiting := (g.find? h.current).any Node.isPrompt
            bound := bound.toNat } := by
  refine History.ofSnapshot_object_eq_ok.mpr ⟨h.current, _, Restoring.position_snapshot g h,
    Restoring.historyBlocks_snapshot g hbound h, ?_⟩
  refine History.make?_eq_some.mpr ⟨hbound, ?_⟩
  rw [latest_map, latest_eq_self (length_latest_le _ _)]

theorem History.ofSnapshot_snapshot (g : Graph) {bound : Int} {h : History} (hbound : 1 ≤ bound)
    (hh : h.bound = bound.toNat) :
    (History.ofSnapshot g bound (.object h.snapshot)).result =
      .ok { current := h.current
            blocks := (latest h.bound h.blocks).map Block.normal
            waiting := (g.find? h.current).any Node.isPrompt
            bound := h.bound } := by
  rw [History.ofSnapshot_snapshot_latest g hbound h, ← hh, latest_eq_self (length_latest_le _ _)]

/-! ## Blocks that are made or read -/

/-- A block that shows who speaks says so by reference as well. -/
def Block.Attributed (b : Block) : Prop := b.speaker = none → b.frozen.bind Identity.id = none

theorem Restoring.speakerOr_eq_none {speaker : Option SpeakerRef} {frozen : Option Identity}
    (h : speakerOr speaker frozen = none) : frozen.bind Identity.id = none := by
  cases speaker with
  | none => exact Option.map_eq_none_iff.mp h
  | some ref => exact absurd h (Option.some_ne_none ref)

theorem Block.speakerOr_eq_self {b : Block} (h : b.Attributed) :
    Restoring.speakerOr b.speaker b.frozen = b.speaker := by
  cases hspeaker : b.speaker with
  | none => exact Option.map_eq_none_iff.mpr (h hspeaker)
  | some ref => rfl

/-- What blocks are like that were made from a node or read from a document. -/
structure Block.Proper (b : Block) : Prop where
  attributed : b.Attributed
  /-- Only a prompt has choices. -/
  choices : b.isPrompt = false → b.choices = []

theorem Block.proper_ofNode {n : Node} {frozen : Option Identity} (h : frozen = none ∨
    ∃ cast isSet, frozen = (SpeakerRef.resolve n.speaker cast isSet).value) : (Block.ofNode n frozen).Proper := by
  refine ⟨fun hspeaker => ?_, fun hprompt => ?_⟩
  · rcases h with rfl | ⟨cast, isSet, rfl⟩
    · rfl
    · have hnone : n.speaker = none := hspeaker
      rw [Block.ofNode, hnone]
      rfl
  · have hnode : n.isPrompt = false := hprompt
    rw [Block.ofNode, hnode]
    rfl

namespace Restoring

theorem eq_nil_of_choices {index : Nat} {kind : NodeKind} {j : Json} {cs : List Choice}
    (h : (Restoring.choices Node.choicesOf index kind j).result = .ok cs) (hkind : kind ≠ .dialogueChoice) : cs = [] := by
  cases j with
  | array items =>
    rw [Restoring.choices, if_neg hkind] at h
    exact (Except.ok.inj h).symm
  | _ => exact (Except.ok.inj h).symm

theorem proper_of_block {index : Nat} {j : Json} {b : Block}
    (h : (Restoring.block Node.choicesOf index j).result = .ok b) : b.Proper := by
  cases j with
  | object members =>
    obtain ⟨id, _, h⟩ := Attempt.result_bind_eq_ok.mp h
    obtain ⟨kind, _, h⟩ := Attempt.result_bind_eq_ok.mp h
    obtain ⟨text, _, h⟩ := Attempt.result_bind_eq_ok.mp h
    obtain ⟨frozen, _, h⟩ := Attempt.result_bind_eq_ok.mp h
    obtain ⟨speaker, _, h⟩ := Attempt.result_bind_eq_ok.mp h
    obtain ⟨choices, hchoices, h⟩ := Attempt.result_bind_eq_ok.mp h
    obtain ⟨graphic, _, h⟩ := Attempt.result_bind_eq_ok.mp h
    obtain rfl := Except.ok.inj h
    refine ⟨speakerOr_eq_none, fun hprompt => ?_⟩
    exact eq_nil_of_choices hchoices (beq_eq_false_iff_ne.mp hprompt)
  | _ => exact absurd h (by simp [Restoring.block, refuse])

theorem proper_of_blocks {items : List Json} {index : Nat} {bs : List Block}
    (h : (Restoring.blocks Node.choicesOf index items).result = .ok bs) : ∀ b ∈ bs, b.Proper := by
  induction items generalizing index bs with
  | nil =>
    obtain rfl := Except.ok.inj h
    exact fun b hb => absurd hb List.not_mem_nil
  | cons item items ih =>
    obtain ⟨first, hfirst, h⟩ := Attempt.result_bind_eq_ok.mp h
    obtain ⟨rest, hrest, h⟩ := Attempt.result_bind_eq_ok.mp h
    obtain rfl := Except.ok.inj h
    intro b hb
    rcases List.mem_cons.mp hb with rfl | hb
    · exact proper_of_block hfirst
    · exact ih hrest b hb

theorem proper_of_recentBlocks {g : Graph} {items : List Json} {bs : List Block}
    (h : (recentBlocks g items).result = .ok bs) : ∀ b ∈ bs, b.Proper := by
  induction items generalizing bs with
  | nil =>
    obtain rfl := Except.ok.inj h
    exact fun b hb => absurd hb List.not_mem_nil
  | cons item items ih =>
    unfold recentBlocks at h
    dsimp only at h
    split at h
    · obtain ⟨rest, hrest, h⟩ := Attempt.result_bind_eq_ok.mp h
      obtain rfl := Except.ok.inj h
      intro b hb
      rcases List.mem_cons.mp hb with rfl | hb
      · exact Block.proper_ofNode (.inl rfl)
      · exact ih hrest b hb
    · obtain ⟨_, _, h⟩ := Attempt.result_bind_eq_ok.mp h
      exact ih h

/-- Blocks are read from the list of rendered blocks, or made from the older list of recent ids. -/
theorem historyBlocks_cases {g : Graph} {bound : Int} {members : Assoc Json} {bs : List Block}
    (h : (historyBlocks Node.choicesOf g bound members).result = .ok bs) :
    (∃ items, Reading.field members "recentNodeIds" = .array items ∧
      (recentBlocks g items).result = .ok bs) ∨
    ∃ items, Reading.field members "renderedBlocks" = .array items ∧
      (Restoring.blocks Node.choicesOf 0 (kept bound items)).result = .ok bs := by
  unfold historyBlocks at h
  split_ifs at h
  · cases hids : Reading.field members "recentNodeIds" with
    | array items =>
      rw [hids] at h
      exact .inl ⟨items, rfl, h⟩
    | _ =>
      rw [hids] at h
      exact absurd h (by simp [refuse])
  · obtain ⟨_, _, h⟩ := Attempt.result_bind_eq_ok.mp h
    cases hblocks : Reading.field members "renderedBlocks" with
    | array items =>
      rw [hblocks] at h
      exact .inr ⟨items, rfl, h⟩
    | _ =>
      rw [hblocks] at h
      exact absurd h (by simp [refuse])

end Restoring

theorem History.proper_of_ofSnapshot {g : Graph} {bound : Int} {snapshot : Json} {h : History}
    (hread : (History.ofSnapshot g bound snapshot).result = .ok h) : ∀ b ∈ h.blocks, b.Proper := by
  cases snapshot with
  | object members =>
    obtain ⟨current, blocks, _, hblocks, hmake⟩ := History.ofSnapshot_object_eq_ok.mp hread
    obtain ⟨_, rfl⟩ := History.make?_eq_some.mp hmake
    intro b hb
    have hmem := mem_of_mem_latest hb
    rcases Restoring.historyBlocks_cases hblocks with ⟨_, _, hread⟩ | ⟨_, _, hread⟩
    · exact Restoring.proper_of_recentBlocks hread b hmem
    · exact Restoring.proper_of_blocks hread b hmem
  | _ => exact absurd hread (by simp [History.ofSnapshot, History.ofSnapshotBy, Restoring.refuse])

end BranchingStory
