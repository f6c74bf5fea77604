import BranchingStory.Proofs.DoubleRange
import BranchingStory.Proofs.Reread

/-!
# The format of authored nodes

Nodes and choices are authored as documents of a fixed form. The form is written down here on its own, as a
grammar: what each member of an object may or must be, and how nodes hold choices and choices hold nodes.
Reading gives a node exactly for the documents of the grammar. A missing member and a null are the same
everywhere, and conditions may be anything.

Every step of the reading is met by its part of the grammar, so a sequence of steps is met by a conjunction
(`succeeds_bind_iff`); the recursion only puts these together.
-/

namespace BranchingStory

/-! ## The grammar -/

namespace Authored

/-- A member that is missing, null, or as it has to be. -/
def May (P : Json → Prop) (members : Assoc Json) (key : String) : Prop :=
  ∀ value, Assoc.get? members key = some value → value ≠ .null → P value

/-- A member that has to be there. -/
def Must (P : Json → Prop) (members : Assoc Json) (key : String) : Prop :=
  ∃ value, Assoc.get? members key = some value ∧ P value

inductive IsString : Json → Prop where
  | string (s : String) : IsString (.string s)

inductive IsStrings : Json → Prop where
  | strings (ss : List String) : IsStrings (.strings ss)

inductive IsProse : Json → Prop where
  | single (s : String) : IsProse (.string s)
  | paragraphs (ss : List String) : IsProse (.strings ss)

inductive IsKind : Json → Prop where
  | kind (kind : NodeKind) : IsKind (.string kind.name)

inductive IsSpeaker : Json → Prop where
  | named (id : String) : IsSpeaker (.string id)
  | inline {members : Assoc Json} (id : Must IsString members "id") (name : May IsString members "name")
      (portrait : May IsString members "portrait") : IsSpeaker (.object members)

inductive IsBranch : Json → Prop where
  | branch {members : Assoc Json} (next : May IsString members "next") : IsBranch (.object members)

inductive IsBranches : Json → Prop where
  | branches {items : List Json} (h : ∀ item ∈ items, IsBranch item) : IsBranches (.array items)

inductive IsScalar : Json → Prop where
  | bool (b : Bool) : IsScalar (.bool b)
  | string (s : String) : IsScalar (.string s)
  | number (n : Number) : IsScalar (.number n)

inductive IsEffects : Json → Prop where
  | effects {members : Assoc Json} (h : ∀ entry ∈ members, IsScalar entry.2) : IsEffects (.object members)

/-- A number that is a double or rounds to one. -/
inductive IsVolume : Json → Prop where
  | double (d : Double) : IsVolume (.double d)
  | int {n : Int} (h : n.natAbs < Double.overflow) : IsVolume (.int n)

inductive IsCue : Json → Prop where
  | named (id : String) : IsCue (.string id)
  | cue {members : Assoc Json} (id : Must IsString members "id") (volume : May IsVolume members "volume") :
      IsCue (.object members)

end Authored

open Authored

mutual

/-- A node that can be authored. There is no rule for its conditions. -/
inductive Node.Format : Json → Prop where
  | node {members : Assoc Json}
      (id : May IsString members "id")
      (kind : Must IsKind members "type")
      (choices : May Choice.ListFormat members "choices")
      (text : May IsProse members "text")
      (speaker : May IsSpeaker members "character")
      (next : May IsString members "next")
      (branches : May IsBranches members "nextIf")
      (effects : May IsEffects members "effects")
      (itemsAdded : May IsStrings members "inventoryAdd")
      (itemsRemoved : May IsStrings members "inventoryRemove")
      (notesAdded : May IsStrings members "notesAdd")
      (ambience : May IsCue members "setAmbience")
      (sound : May IsCue members "playSFX")
      (graphic : May IsString members "graphic") : Node.Format (.object members)

inductive Node.ListFormat : Json → Prop where
  | nodes {items : List Json} (h : ∀ item ∈ items, Node.Format item) : Node.ListFormat (.array items)

/-- A choice that can be authored, with the nodes that react to it. -/
inductive Choice.Format : Json → Prop where
  | choice {members : Assoc Json}
      (reactions : May Node.ListFormat members "reaction")
      (text : Must IsString members "text")
      (next : May IsString members "next")
      (effects : May IsEffects members "effects") : Choice.Format (.object members)

inductive Choice.ListFormat : Json → Prop where
  | choices {items : List Json} (h : ∀ item ∈ items, Choice.Format item) : Choice.ListFormat (.array items)

end

/-! ## What is met by each reader -/

namespace Reading

variable {α β : Type}

/-- Reading ends with a value, whichever it is. -/
def Succeeds (x : Reading α) : Prop := ∃ a, x.result = .ok a

theorem succeeds_pure (a : α) : Succeeds (pure a : Reading α) := ⟨a, rfl⟩

theorem not_succeeds_expected (place : String) (what : Expected) :
    ¬ Succeeds (expected place what : Reading α) := by
  rintro ⟨a, ha⟩
  simp [expected, fail] at ha

theorem succeeds_expected_iff {place : String} {what : Expected} {j : Json} {P : Json → Prop} (hnull : j ≠ .null)
    (hP : ¬ P j) : Succeeds (expected place what : Reading α) ↔ (j ≠ .null → P j) :=
  iff_of_false (not_succeeds_expected place what) fun h => hP (h hnull)

section Bind

variable {x : Reading α} {f : α → Reading β} {A B : Prop}

theorem succeeds_bind_iff (hx : Succeeds x ↔ A) (hf : ∀ a, Succeeds (f a) ↔ B) :
    Succeeds (x >>= f) ↔ A ∧ B := by
  constructor
  · rintro ⟨b, hb⟩
    obtain ⟨a, ha, hb⟩ := Attempt.result_bind_eq_ok.mp hb
    exact ⟨hx.mp ⟨a, ha⟩, (hf a).mp ⟨b, hb⟩⟩
  · rintro ⟨hA, hB⟩
    obtain ⟨a, ha⟩ := hx.mpr hA
    obtain ⟨b, hb⟩ := (hf a).mpr hB
    exact ⟨b, Attempt.result_bind_eq_ok.mpr ⟨a, ha, hb⟩⟩

theorem succeeds_bind_of_succeeds (hx : Succeeds x) (hf : ∀ a, Succeeds (f a) ↔ B) :
    Succeeds (x >>= f) ↔ B := by
  rw [succeeds_bind_iff (iff_true_intro hx) hf, true_and]

theorem succeeds_bind_iff_left (hx : Succeeds x ↔ A) (hf : ∀ a, Succeeds (f a)) : Succeeds (x >>= f) ↔ A := by
  rw [succeeds_bind_iff hx fun a => iff_true_intro (hf a), and_true]

end Bind

section Members

variable {members : Assoc Json} {key : String} {P : Json → Prop} {read : Json → Reading α}

/-- A reader that takes null for a member that is not there reads an optional member. -/
theorem succeeds_may_iff (h : ∀ j, Succeeds (read j) ↔ (j ≠ .null → P j)) :
    Succeeds (read (field members key)) ↔ May P members key := by
  rw [h, field]
  unfold May
  cases Assoc.get? members key with
  | none => simp
  | some value => simp

theorem succeeds_must_iff (h : ∀ j, Succeeds (read j) ↔ P j) (hnull : ¬ P .null) :
    Succeeds (read (field members key)) ↔ Must P members key := by
  rw [h, field]
  unfold Must
  cases Assoc.get? members key with
  | none => simp [hnull]
  | some value => simp

end Members

section Readers

variable (place : String) (j : Json)

theorem not_isString_null : ¬ IsString .null := by
  rintro ⟨⟩

theorem not_isKind_null : ¬ IsKind .null := by
  rintro ⟨⟩

theorem succeeds_string_iff : Succeeds (string place j) ↔ IsString j := by
  cases j with
  | string s => exact iff_of_true (succeeds_pure s) (.string s)
  | _ => exact iff_of_false (not_succeeds_expected _ _) (by rintro ⟨⟩)

theorem succeeds_optionalString_iff : Succeeds (optionalString place j) ↔ (j ≠ .null → IsString j) := by
  cases j with
  | null => exact iff_of_true (succeeds_pure none) fun h => absurd rfl h
  | string s => exact iff_of_true (succeeds_pure (some s)) fun _ => .string s
  | _ => exact succeeds_expected_iff (by simp) (by rintro ⟨⟩)

theorem allStrings?_eq_none_iff (items : List Json) : allStrings? items = none ↔ ¬ IsStrings (.array items) := by
  constructor
  · rintro hnone ⟨ss⟩
    simp at hnone
  · intro h
    cases hss : allStrings? items with
    | none => rfl
    | some ss =>
      rw [eq_map_of_allStrings? hss] at h
      exact absurd (.strings ss) h

theorem succeeds_idList_iff : Succeeds (idList place j) ↔ (j ≠ .null → IsStrings j) := by
  cases j with
  | null => exact iff_of_true (succeeds_pure []) fun h => absurd rfl h
  | array items =>
    cases hss : allStrings? items with
    | none =>
      simp only [idList, hss]
      exact iff_of_false (not_succeeds_expected _ _) fun h =>
        (allStrings?_eq_none_iff items).mp hss (h (by simp))
    | some ss =>
      simp only [idList, hss]
      rw [eq_map_of_allStrings? hss]
      exact iff_of_true (succeeds_pure ss) fun _ => .strings ss
  | _ => exact succeeds_expected_iff (by simp) (by rintro ⟨⟩)

theorem succeeds_prose_iff : Succeeds (prose place j) ↔ (j ≠ .null → IsProse j) := by
  cases j with
  | null => exact iff_of_true (succeeds_pure _) fun h => absurd rfl h
  | string s => exact iff_of_true (succeeds_pure _) fun _ => .single s
  | array items =>
    cases hss : allStrings? items with
    | none =>
      simp only [prose, hss]
      refine iff_of_false (not_succeeds_expected _ _) fun h => ?_
      obtain ⟨ss⟩ | ⟨ss⟩ := h (by simp)
      exact (allStrings?_eq_none_iff _).mp hss (.strings ss)
    | some ss =>
      simp only [prose, hss]
      rw [eq_map_of_allStrings? hss]
      exact iff_of_true (succeeds_pure _) fun _ => .paragraphs ss
  | _ => exact succeeds_expected_iff (by simp) (by rintro ⟨⟩)

theorem succeeds_kind_iff : Succeeds (kind place j) ↔ IsKind j := by
  cases j with
  | string s =>
    cases hkind : NodeKind.ofName? s with
    | none =>
      simp only [kind, hkind]
      refine iff_of_false (not_succeeds_expected _ _) ?_
      rintro ⟨kind⟩
      simp at hkind
    | some found =>
      simp only [kind, hkind]
      have hname : found.name = s := by simpa using List.find?_some hkind
      rw [← hname]
      exact iff_of_true (succeeds_pure found) (.kind found)
  | _ => exact iff_of_false (not_succeeds_expected _ _) (by rintro ⟨⟩)

theorem succeeds_speaker_iff : Succeeds (speaker place j) ↔ (j ≠ .null → IsSpeaker j) := by
  cases j with
  | null => exact iff_of_true (succeeds_pure none) fun h => absurd rfl h
  | string id => exact iff_of_true (succeeds_pure _) fun _ => .named id
  | object members =>
    have hread : Succeeds (speaker place (.object members)) ↔ Must IsString members "id" ∧
        May IsString members "name" ∧ May IsString members "portrait" := by
      refine succeeds_bind_iff (succeeds_must_iff (succeeds_string_iff _) not_isString_null) fun id => ?_
      refine succeeds_bind_iff (succeeds_may_iff (succeeds_optionalString_iff _)) fun name => ?_
      exact succeeds_bind_iff_left (succeeds_may_iff (succeeds_optionalString_iff _)) fun portrait => succeeds_pure _
    rw [hread]
    constructor
    · rintro ⟨id, name, portrait⟩ _
      exact .inline id name portrait
    · intro h
      obtain _ | ⟨id, name, portrait⟩ := h (by simp)
      exact ⟨id, name, portrait⟩
  | _ => exact succeeds_expected_iff (by simp) (by rintro ⟨⟩)

theorem isVolume_number_iff (n : Number) : IsVolume (.number n) ↔ n.toDouble? ≠ none := by
  cases n with
  | double d => exact iff_of_true (.double d) (by simp [Number.toDouble?])
  | int n =>
    rw [Ne, Number.toDouble?, Double.ofInt?_eq_none_iff, Nat.not_le]
    constructor
    · rintro ⟨⟩
      assumption
    · exact .int

theorem succeeds_volume_iff : Succeeds (volume place j) ↔ (j ≠ .null → IsVolume j) := by
  cases j with
  | null => exact iff_of_true (succeeds_pure _) fun h => absurd rfl h
  | number n =>
    rw [isVolume_number_iff, volume]
    cases n.toDouble? with
    | none => simp [Succeeds, fail]
    | some d => exact iff_of_true (succeeds_pure d) (by simp)
  | _ => exact succeeds_expected_iff (by simp) (by rintro ⟨⟩)

theorem succeeds_cue_iff : Succeeds (cue place j) ↔ (j ≠ .null → IsCue j) := by
  cases j with
  | null => exact iff_of_true (succeeds_pure none) fun h => absurd rfl h
  | string id => exact iff_of_true (succeeds_pure _) fun _ => .named id
  | object members =>
    have hread : Succeeds (cue place (.object members)) ↔
        Must IsString members "id" ∧ May IsVolume members "volume" := by
      refine succeeds_bind_iff (succeeds_must_iff (succeeds_string_iff _) not_isString_null) fun id => ?_
      exact succeeds_bind_iff_left (succeeds_may_iff (succeeds_volume_iff _)) fun volume => succeeds_pure _
    rw [hread]
    constructor
    · rintro ⟨id, volume⟩ _
      exact .cue id volume
    · intro h
      obtain _ | ⟨id, volume⟩ := h (by simp)
      exact ⟨id, volume⟩
  | _ => exact succeeds_expected_iff (by simp) (by rintro ⟨⟩)

theorem succeeds_conditionMembers (members : List (String × Json)) :
    Succeeds (conditionMembers place members) := by
  induction members with
  | nil => exact succeeds_pure []
  | cons entry rest ih =>
    rw [conditionMembers]
    split
    · exact (succeeds_bind_iff_left Iff.rfl fun tail => succeeds_pure _).mpr ih
    · exact (succeeds_bind_of_succeeds ⟨(), rfl⟩ fun _ => Iff.rfl).mpr ih

theorem succeeds_conditions : Succeeds (conditions place j) := by
  cases j with
  | null => exact succeeds_pure []
  | object members => exact succeeds_conditionMembers place members
  | _ => exact ⟨[], rfl⟩

theorem isScalar_iff : IsScalar j ↔ ∃ v, FlagValue.ofJson? j = some v := by
  constructor
  · rintro (b | s | n)
    · exact ⟨.bool b, rfl⟩
    · exact ⟨.text s, rfl⟩
    · exact ⟨.number n, rfl⟩
  · rintro ⟨v, hv⟩
    rw [← FlagValue.toJson_of_ofJson? hv]
    cases v with
    | bool b => exact .bool b
    | text s => exact .string s
    | number n => exact .number n

theorem succeeds_effectMembers_iff (members : List (String × Json)) :
    Succeeds (effectMembers place members) ↔ ∀ entry ∈ members, IsScalar entry.2 := by
  induction members with
  | nil => exact iff_of_true (succeeds_pure []) (by simp)
  | cons entry rest ih =>
    rw [effectMembers, List.forall_mem_cons]
    split
    · rename_i v hv
      rw [succeeds_bind_iff_left ih fun tail => succeeds_pure _, iff_true_intro ((isScalar_iff _).mpr ⟨v, hv⟩),
        true_and]
    · rename_i hnone
      refine iff_of_false (not_succeeds_expected _ _) fun h => ?_
      obtain ⟨v, hv⟩ := (isScalar_iff _).mp h.1
      rw [hnone] at hv
      cases hv

theorem succeeds_effects_iff : Succeeds (effects place j) ↔ (j ≠ .null → IsEffects j) := by
  cases j with
  | null => exact iff_of_true (succeeds_pure []) fun h => absurd rfl h
  | object members =>
    rw [effects, succeeds_effectMembers_iff]
    constructor
    · intro h _
      exact .effects h
    · intro h
      obtain ⟨h⟩ := h (by simp)
      exact h
  | _ => exact succeeds_expected_iff (by simp) (by rintro ⟨⟩)

theorem succeeds_branch_iff : Succeeds (branch place j) ↔ IsBranch j := by
  cases j with
  | object members =>
    rw [branch, object, pure_bind, succeeds_bind_iff_left (succeeds_may_iff (succeeds_optionalString_iff _))
      fun next => (succeeds_bind_iff_left Iff.rfl fun conditions => succeeds_pure _).mpr (succeeds_conditions _ _)]
    constructor
    · exact .branch
    · rintro ⟨next⟩
      exact next
  | _ =>
    refine iff_of_false ?_ (by rintro ⟨⟩)
    rintro ⟨found, h⟩
    obtain ⟨members, hmembers, _⟩ := Attempt.result_bind_eq_ok.mp h
    exact not_succeeds_expected _ _ ⟨members, hmembers⟩

theorem succeeds_mapM_iff {item : String → Json → Reading α} {P : Json → Prop}
    (hitem : ∀ place j, Succeeds (item place j) ↔ P j) (entries : List (Json × Nat)) :
    Succeeds (entries.mapM fun entry => item (itemPlace place entry.2) entry.1) ↔ ∀ entry ∈ entries, P entry.1 := by
  induction entries with
  | nil => exact iff_of_true (succeeds_pure []) (by simp)
  | cons entry rest ih =>
    rw [List.mapM_cons, List.forall_mem_cons]
    exact succeeds_bind_iff (hitem _ entry.1) fun first => succeeds_bind_iff_left ih fun tail => succeeds_pure _

theorem succeeds_branches_iff : Succeeds (optionalList place branch j) ↔ (j ≠ .null → IsBranches j) := by
  cases j with
  | null => exact iff_of_true (succeeds_pure []) fun h => absurd rfl h
  | array items =>
    have hitems : (∀ entry ∈ items.zipIdx, IsBranch entry.1) ↔ ∀ item ∈ items, IsBranch item := by
      conv_rhs => rw [← List.zipIdx_map_fst 0 items]
      exact List.forall_mem_map.symm
    rw [optionalList, succeeds_mapM_iff place succeeds_branch_iff, hitems]
    constructor
    · intro h _
      exact .branches h
    · intro h
      obtain ⟨h⟩ := h (by simp)
      exact h
  | _ => exact succeeds_expected_iff (by simp) (by rintro ⟨⟩)

end Readers
end Reading

namespace Authored

open Reading

variable {place : String} {members : Assoc Json}

/-- A node is read exactly if each of its members is; the reading of its choices is left open. -/
theorem succeeds_node_iff {choices : String → Reading (List Choice)} {Choices : Prop}
    (hchoices : ∀ place, Succeeds (choices place) ↔ Choices) :
    Succeeds (node place members choices) ↔
      May IsString members "id" ∧ Must IsKind members "type" ∧ Choices ∧ May IsProse members "text" ∧
      May IsSpeaker members "character" ∧ May IsString members "next" ∧ May IsBranches members "nextIf" ∧
      May IsEffects members "effects" ∧ May IsStrings members "inventoryAdd" ∧
      May IsStrings members "inventoryRemove" ∧ May IsStrings members "notesAdd" ∧
      May IsCue members "setAmbience" ∧ May IsCue members "playSFX" ∧ May IsString members "graphic" := by
  refine succeeds_bind_iff (succeeds_may_iff (succeeds_optionalString_iff _)) fun id => ?_
  refine succeeds_bind_iff (succeeds_must_iff (succeeds_kind_iff _) not_isKind_null) fun kind => ?_
  refine succeeds_bind_iff (hchoices _) fun choices => ?_
  refine succeeds_bind_iff (succeeds_may_iff (succeeds_prose_iff _)) fun text => ?_
  refine succeeds_bind_iff (succeeds_may_iff (succeeds_speaker_iff _)) fun speaker => ?_
  -- Conditions are read here, and pass whatever they are.
  refine succeeds_bind_of_succeeds (succeeds_conditions _ _) fun conditions => ?_
  refine succeeds_bind_iff (succeeds_may_iff (succeeds_optionalString_iff _)) fun next => ?_
  refine succeeds_bind_iff (succeeds_may_iff (succeeds_branches_iff _)) fun branches => ?_
  refine succeeds_bind_iff (succeeds_may_iff (succeeds_effects_iff _)) fun effects => ?_
  refine succeeds_bind_iff (succeeds_may_iff (succeeds_idList_iff _)) fun itemsAdded => ?_
  refine succeeds_bind_iff (succeeds_may_iff (succeeds_idList_iff _)) fun itemsRemoved => ?_
  refine succeeds_bind_iff (succeeds_may_iff (succeeds_idList_iff _)) fun notesAdded => ?_
  refine succeeds_bind_iff (succeeds_may_iff (succeeds_cue_iff _)) fun ambience => ?_
  refine succeeds_bind_iff (succeeds_may_iff (succeeds_cue_iff _)) fun sound => ?_
  exact succeeds_bind_iff_left (succeeds_may_iff (succeeds_optionalString_iff _)) fun graphic => succeeds_pure _

theorem succeeds_choice_iff {reactions : Reading (List Node)} {Reactions : Prop}
    (hreactions : Succeeds reactions ↔ Reactions) :
    Succeeds (choice place members reactions) ↔
      Reactions ∧ Must IsString members "text" ∧ May IsString members "next" ∧ May IsEffects members "effects" := by
  refine succeeds_bind_iff hreactions fun reactions => ?_
  refine succeeds_bind_iff (succeeds_must_iff (succeeds_string_iff _) not_isString_null) fun text => ?_
  refine succeeds_bind_iff (succeeds_may_iff (succeeds_optionalString_iff _)) fun next => ?_
  exact succeeds_bind_iff_left (succeeds_may_iff (succeeds_effects_iff _)) fun effects => succeeds_pure _

end Authored

/-! ## The recursion -/

open Reading

mutual

theorem Node.succeeds_read_iff {place : String} : {j : Json} → (Succeeds (Node.read place j) ↔ Node.Format j)
  | .object members => by
    rw [Node.read, succeeds_node_iff fun place => Node.succeeds_choicesAmong_iff]
    constructor
    · rintro ⟨id, kind, choices, text, speaker, next, branches, effects, itemsAdded, itemsRemoved, notesAdded,
        ambience, sound, graphic⟩
      exact .node id kind choices text speaker next branches effects itemsAdded itemsRemoved notesAdded ambience
        sound graphic
    · rintro ⟨id, kind, choices, text, speaker, next, branches, effects, itemsAdded, itemsRemoved, notesAdded,
        ambience, sound, graphic⟩
      exact ⟨id, kind, choices, text, speaker, next, branches, effects, itemsAdded, itemsRemoved, notesAdded,
        ambience, sound, graphic⟩
  | .null | .bool _ | .number _ | .string _ | .array _ => iff_of_false (not_succeeds_expected _ _) (by rintro ⟨⟩)

theorem Node.succeeds_choicesAmong_iff {place : String} : {members : List (String × Json)} →
    (Succeeds (Node.choicesAmong place members) ↔ May Choice.ListFormat members "choices")
  | [] => iff_of_true (succeeds_pure []) (by simp [May])
  | (key, value) :: rest => by
    by_cases hkey : key = "choices"
    · rw [Node.choicesAmong, if_pos hkey, Node.succeeds_choicesOf_iff]
      simp [May, Assoc.get?, hkey]
    · rw [Node.choicesAmong, if_neg hkey, Node.succeeds_choicesAmong_iff]
      simp [May, Assoc.get?, hkey]

theorem Node.succeeds_choicesOf_iff {place : String} : {j : Json} →
    (Succeeds (Node.choicesOf place j) ↔ (j ≠ .null → Choice.ListFormat j))
  | .array items => by
    rw [Node.choicesOf, Node.succeeds_choiceItems_iff]
    constructor
    · intro h _
      exact .choices h
    · intro h
      obtain ⟨h⟩ := h (by simp)
      exact h
  | .null => iff_of_true (succeeds_pure []) fun h => absurd rfl h
  | .bool _ | .number _ | .string _ | .object _ =>
    succeeds_expected_iff (by simp) (by rintro ⟨⟩)

theorem Node.succeeds_choiceItems_iff {place : String} {index : Nat} : {items : List Json} →
    (Succeeds (Node.choiceItems place index items) ↔ ∀ item ∈ items, Choice.Format item)
  | [] => iff_of_true (succeeds_pure []) (by simp)
  | item :: items => by
    rw [List.forall_mem_cons]
    exact succeeds_bind_iff Choice.succeeds_read_iff fun choice =>
      succeeds_bind_iff_left Node.succeeds_choiceItems_iff fun choices => succeeds_pure _

theorem Choice.succeeds_read_iff {place : String} : {j : Json} → (Succeeds (Choice.read place j) ↔ Choice.Format j)
  | .object members => by
    rw [Choice.read, succeeds_choice_iff Choice.succeeds_reactionsAmong_iff]
    constructor
    · rintro ⟨reactions, text, next, effects⟩
      exact .choice reactions text next effects
    · rintro ⟨reactions, text, next, effects⟩
      exact ⟨reactions, text, next, effects⟩
  | .null | .bool _ | .number _ | .string _ | .array _ => iff_of_false (not_succeeds_expected _ _) (by rintro ⟨⟩)

theorem Choice.succeeds_reactionsAmong_iff {place : String} : {members : List (String × Json)} →
    (Succeeds (Choice.reactionsAmong place members) ↔ May Node.ListFormat members "reaction")
  | [] => iff_of_true (succeeds_pure []) (by simp [May])
  | (key, value) :: rest => by
    by_cases hkey : key = "reaction"
    · rw [Choice.reactionsAmong, if_pos hkey, Choice.succeeds_reactionsOf_iff]
      simp [May, Assoc.get?, hkey]
    · rw [Choice.reactionsAmong, if_neg hkey, Choice.succeeds_reactionsAmong_iff]
      simp [May, Assoc.get?, hkey]

theorem Choice.succeeds_reactionsOf_iff {place : String} : {j : Json} →
    (Succeeds (Choice.reactionsOf place j) ↔ (j ≠ .null → Node.ListFormat j))
  | .array items => by
    rw [Choice.reactionsOf, Choice.succeeds_reactionItems_iff]
    constructor
    · intro h _
      exact .nodes h
    · intro h
      obtain ⟨h⟩ := h (by simp)
      exact h
  | .null => iff_of_true (succeeds_pure []) fun h => absurd rfl h
  | .bool _ | .number _ | .string _ | .object _ =>
    succeeds_expected_iff (by simp) (by rintro ⟨⟩)

theorem Choice.succeeds_reactionItems_iff {place : String} {index : Nat} : {items : List Json} →
    (Succeeds (Choice.reactionItems place index items) ↔ ∀ item ∈ items, Node.Format item)
  | [] => iff_of_true (succeeds_pure []) (by simp)
  | item :: items => by
    rw [List.forall_mem_cons]
    exact succeeds_bind_iff Node.succeeds_read_iff fun node =>
      succeeds_bind_iff_left Choice.succeeds_reactionItems_iff fun nodes => succeeds_pure _

end

/-- Reading an authored node gives one exactly for the values of the format, whatever the node is called. -/
theorem Node.exists_read_eq_ok_iff_format (place : String) (j : Json) :
    (∃ n, (Node.read place j).result = .ok n) ↔ Node.Format j := Node.succeeds_read_iff

end BranchingStory
