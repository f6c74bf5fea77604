import BranchingStory.Play.Snapshot
import Mathlib.Tactic.Common

/-!
# Nodes read back from their written form

The written form of a node leaves out what is empty, and the reader of authored values fills in what is
missing. Reading a written node therefore gives the node back, except that an empty id, target or
graphic is missing afterwards and an empty list of paragraphs is an empty text, at every depth of
choices and reactions.
-/

namespace BranchingStory

/-! ## Members -/

namespace Assoc

variable {α β : Type}

theorem get?_append (first second : Assoc α) (key : String) :
    get? (first ++ second) key = (get? first key).or (get? second key) := by
  induction first with
  | nil => rfl
  | cons entry rest ih =>
    obtain ⟨name, value⟩ := entry
    by_cases h : name = key <;> simp [get?, h, ih]

theorem get?_member? (name : String) (toJson : α → Json) (value : Option α) (key : String) :
    get? (member? name toJson value) key = if name = key then value.map toJson else none := by
  cases value <;> simp [member?, get?]

theorem get?_memberIf (condition : Bool) (name : String) (value : Json) (key : String) :
    get? (memberIf condition name value) key =
      if name = key then (if condition then some value else none) else none := by
  cases condition <;> simp [memberIf, get?]

end Assoc

/-! ## Leaves -/

namespace Reading

@[simp] theorem optionalString_ofString? (place : String) (s : Option String) :
    (optionalString place (Json.ofString? s)).result = .ok s := by
  cases s <;> rfl

theorem optionalString_written (place : String) (s : Option String) :
    (optionalString place ((s.map Json.string).getD .null)).result = .ok s := by
  cases s <;> rfl

@[simp] theorem allStrings?_map_string (ss : List String) :
    allStrings? (ss.map Json.string) = some ss := by
  induction ss with
  | nil => rfl
  | cons s ss ih => simp [allStrings?, ih]

theorem eq_map_of_allStrings? {items : List Json} {ss : List String}
    (h : allStrings? items = some ss) : items = ss.map Json.string := by
  induction items generalizing ss with
  | nil =>
    obtain rfl : [] = ss := Option.some.inj h
    rfl
  | cons item rest ih =>
    cases item with
    | string s =>
      obtain ⟨tail, htail, rfl⟩ := Option.map_eq_some_iff.mp h
      rw [ih htail, List.map_cons]
    | _ => exact absurd h.symm (Option.some_ne_none ss)

@[simp] theorem idList_strings (place : String) (ids : List String) :
    (idList place (.strings ids)).result = .ok ids := by
  simp [Json.strings, idList]

@[simp] theorem prose_toJson (place : String) (text : Prose) :
    (prose place text.toJson).result = .ok text := by
  cases text <;> simp [Prose.toJson, Json.strings, prose]

theorem speaker_toJson (place : String) (ref : SpeakerRef) :
    (speaker place ref.toJson).result = .ok (some ref) := by
  cases ref with
  | named id => rfl
  | inline character =>
    obtain ⟨id, name, portrait⟩ := character
    cases name <;> cases portrait <;> rfl

@[simp] theorem speaker_optionToJson (place : String) (ref : Option SpeakerRef) :
    (speaker place (SpeakerRef.optionToJson ref)).result = .ok ref := by
  cases ref with
  | none => rfl
  | some ref => exact speaker_toJson place ref

@[simp] theorem cue_toJson (place : String) (c : Cue) :
    (cue place c.toJson).result = .ok (some c) := rfl

theorem effectMembers_ofValues (place : String) (values : FlagValues) :
    (effectMembers place (Flags.ofValues values)).result = .ok values := by
  induction values with
  | nil => rfl
  | cons entry rest ih =>
    obtain ⟨flag, value⟩ := entry
    simp only [Flags.ofValues, List.map_cons, effectMembers, FlagValue.ofJson?_toJson]
    exact Attempt.result_bind_eq_ok.mpr ⟨rest, ih, rfl⟩

@[simp] theorem effects_toJson (place : String) (values : FlagValues) :
    (effects place (FlagValues.toJson values)).result = .ok values :=
  effectMembers_ofValues place values

theorem conditionMembers_ofValues (place : String) (values : Conditions) :
    (conditionMembers place (Flags.ofValues values)).result = .ok values := by
  induction values with
  | nil => rfl
  | cons entry rest ih =>
    obtain ⟨flag, value⟩ := entry
    simp only [Flags.ofValues, List.map_cons, conditionMembers, FlagValue.ofJson?_toJson]
    exact Attempt.result_bind_eq_ok.mpr ⟨rest, ih, rfl⟩

@[simp] theorem conditions_toJson (place : String) (values : Conditions) :
    (conditions place (FlagValues.toJson values)).result = .ok values :=
  conditionMembers_ofValues place values

theorem read_optional {α : Type} {read : Json → Reading (Option α)} {toJson : α → Json}
    (hnull : (read .null).result = .ok none) (hread : ∀ a, (read (toJson a)).result = .ok (some a))
    (value : Option α) : (read ((value.map toJson).getD .null)).result = .ok value := by
  cases value with
  | none => exact hnull
  | some a => exact hread a

theorem read_unlessEmpty {α β : Type} {items : List α} {read : Json → Reading β} {value : Json} {b : β}
    (hnull : items = [] → (read .null).result = .ok b) (hread : (read value).result = .ok b) :
    (read ((if !items.isEmpty then some value else none).getD .null)).result = .ok b := by
  cases items with
  | nil => exact hnull rfl
  | cons item rest => exact hread

theorem branch_toJson (place : String) (b : Branch) : (branch place b.toJson).result = .ok b := by
  obtain ⟨next, conditions⟩ := b
  refine Attempt.result_bind_eq_ok.mpr ⟨_, rfl, ?_⟩
  refine Attempt.result_bind_eq_ok.mpr ⟨next, ?_, ?_⟩
  · exact optionalString_ofString? _ next
  refine Attempt.result_bind_eq_ok.mpr ⟨conditions, ?_, rfl⟩
  simp only [field, Assoc.get?, Assoc.get?_memberIf, String.reduceEq, ↓reduceIte]
  exact read_unlessEmpty (fun h => h ▸ rfl) (conditions_toJson _ conditions)

theorem optionalList_map {α : Type} {item : String → Json → Reading α} {toJson : α → Json}
    (hitem : ∀ place a, (item place (toJson a)).result = .ok a) (place : String) (items : List α) :
    (optionalList place item (.array (items.map toJson))).result = .ok items := by
  have hfrom : ∀ start, ((items.map toJson).zipIdx start |>.mapM fun entry =>
      item (itemPlace place entry.2) entry.1).result = .ok items := by
    induction items with
    | nil => intro start; rfl
    | cons a rest ih =>
      intro start
      simp only [List.map_cons, List.zipIdx_cons, List.mapM_cons]
      rw [Attempt.result_bind_of_ok (hitem _ a), Attempt.result_bind_of_ok (ih (start + 1))]
      rfl
  exact hfrom 0

end Reading

/-! ## What writing forgets -/

def Prose.normal : Prose → Prose
  | .paragraphs [] => .single ""
  | text => text

theorem Reading.prose_written (place : String) (text : Prose) :
    (Reading.prose place ((if !text.isEmpty then some text.toJson else none).getD .null)).result =
      .ok text.normal := by
  cases text with
  | single s =>
    by_cases h : s = ""
    · subst h
      rfl
    · have hempty : (Prose.single s).isEmpty = false := beq_eq_false_iff_ne.mpr h
      rw [hempty]
      rfl
  | paragraphs ss =>
    cases ss with
    | nil => rfl
    | cons s rest => exact Reading.prose_toJson place (.paragraphs (s :: rest))

mutual
/-- The node that is read back. -/
def Node.normal : Node → Node
  | ⟨id, kind, text, speaker, conditions, next, branches, effects, itemsAdded, itemsRemoved,
      notesAdded, ambience, sound, choices, graphic⟩ =>
    ⟨nonEmpty? id, kind, text.normal, speaker, conditions, nonEmpty? next, branches, effects, itemsAdded,
      itemsRemoved, notesAdded, ambience, sound, Choice.allNormal choices, nonEmpty? graphic⟩

def Choice.normal : Choice → Choice
  | ⟨text, next, effects, reactions⟩ => ⟨text, nonEmpty? next, effects, Node.allNormal reactions⟩

def Choice.allNormal : List Choice → List Choice
  | [] => []
  | choice :: choices => Choice.normal choice :: Choice.allNormal choices

def Node.allNormal : List Node → List Node
  | [] => []
  | node :: nodes => Node.normal node :: Node.allNormal nodes
end

/-! ## Nodes and choices -/

open Reading in
theorem Authored.node_eq_ok {place : String} {members : Assoc Json}
    {choices : String → Reading (List Choice)} {n : Node}
    (hid : ∀ place, (optionalString place (field members "id")).result = .ok n.id)
    (hkind : ∀ place, (kind place (field members "type")).result = .ok n.kind)
    (hchoices : ∀ place, (choices place).result = .ok n.choices)
    (htext : ∀ place, (prose place (field members "text")).result = .ok n.text)
    (hspeaker : ∀ place, (speaker place (field members "character")).result = .ok n.speaker)
    (hconditions : ∀ place, (conditions place (field members "conditions")).result = .ok n.conditions)
    (hnext : ∀ place, (optionalString place (field members "next")).result = .ok n.next)
    (hbranches : ∀ place, (optionalList place branch (field members "nextIf")).result = .ok n.branches)
    (heffects : ∀ place, (effects place (field members "effects")).result = .ok n.effects)
    (hadded : ∀ place, (idList place (field members "inventoryAdd")).result = .ok n.itemsAdded)
    (hremoved : ∀ place, (idList place (field members "inventoryRemove")).result = .ok n.itemsRemoved)
    (hnotes : ∀ place, (idList place (field members "notesAdd")).result = .ok n.notesAdded)
    (hambience : ∀ place, (cue place (field members "setAmbience")).result = .ok n.ambience)
    (hsound : ∀ place, (cue place (field members "playSFX")).result = .ok n.sound)
    (hgraphic : ∀ place, (optionalString place (field members "graphic")).result = .ok n.graphic) :
    (Authored.node place members choices).result = .ok n := by
  refine Attempt.result_bind_eq_ok.mpr ⟨_, hid _, ?_⟩
  refine Attempt.result_bind_eq_ok.mpr ⟨_, hkind _, ?_⟩
  refine Attempt.result_bind_eq_ok.mpr ⟨_, hchoices _, ?_⟩
  refine Attempt.result_bind_eq_ok.mpr ⟨_, htext _, ?_⟩
  refine Attempt.result_bind_eq_ok.mpr ⟨_, hspeaker _, ?_⟩
  refine Attempt.result_bind_eq_ok.mpr ⟨_, hconditions _, ?_⟩
  refine Attempt.result_bind_eq_ok.mpr ⟨_, hnext _, ?_⟩
  refine Attempt.result_bind_eq_ok.mpr ⟨_, hbranches _, ?_⟩
  refine Attempt.result_bind_eq_ok.mpr ⟨_, heffects _, ?_⟩
  refine Attempt.result_bind_eq_ok.mpr ⟨_, hadded _, ?_⟩
  refine Attempt.result_bind_eq_ok.mpr ⟨_, hremoved _, ?_⟩
  refine Attempt.result_bind_eq_ok.mpr ⟨_, hnotes _, ?_⟩
  refine Attempt.result_bind_eq_ok.mpr ⟨_, hambience _, ?_⟩
  refine Attempt.result_bind_eq_ok.mpr ⟨_, hsound _, ?_⟩
  refine Attempt.result_bind_eq_ok.mpr ⟨_, hgraphic _, ?_⟩
  cases n
  rfl

open Reading in
theorem Authored.choice_eq_ok {place : String} {members : Assoc Json} {reactions : Reading (List Node)}
    {choice : Choice} (hreactions : reactions.result = .ok choice.reactions)
    (htext : ∀ place, (string place (field members "text")).result = .ok choice.text)
    (hnext : ∀ place, (optionalString place (field members "next")).result = .ok choice.next)
    (heffects : ∀ place, (effects place (field members "effects")).result = .ok choice.effects) :
    (Authored.choice place members reactions).result = .ok choice := by
  refine Attempt.result_bind_eq_ok.mpr ⟨_, hreactions, ?_⟩
  refine Attempt.result_bind_eq_ok.mpr ⟨_, htext _, ?_⟩
  refine Attempt.result_bind_eq_ok.mpr ⟨_, hnext _, ?_⟩
  refine Attempt.result_bind_eq_ok.mpr ⟨_, heffects _, ?_⟩
  cases choice
  rfl

theorem Assoc.get?_choicesMember (choices : List Choice) (key : String) :
    Assoc.get? (Node.choicesMember choices) key =
      if "choices" = key then
        (if !choices.isEmpty then some (.array (Choice.allToJson choices)) else none)
      else none := by
  cases choices <;> simp [Node.choicesMember, Assoc.get?, Choice.allToJson]

theorem Assoc.get?_reactionsMember (reactions : List Node) (key : String) :
    Assoc.get? (Choice.reactionsMember reactions) key =
      if "reaction" = key then
        (if !reactions.isEmpty then some (.array (Node.allToJson reactions)) else none)
      else none := by
  cases reactions <;> simp [Choice.reactionsMember, Assoc.get?, Node.allToJson]

open Reading Assoc in
mutual
/-- A written node reads back, whatever the reader calls it. -/
theorem Node.read_toJson (place : String) : (n : Node) →
    (Node.read place n.toJson).result = .ok n.normal
  | ⟨id, kind, text, speaker, conditions, next, branches, effects, itemsAdded, itemsRemoved,
      notesAdded, ambience, sound, choices, graphic⟩ => by
    have hchoices := fun place => Node.choiceItems_allToJson place 0 choices
    rw [Node.toJson, Node.read]
    refine Authored.node_eq_ok ?hid ?hkind ?hchoices ?htext ?hspeaker ?hconditions ?hnext ?hbranches ?heffects
      ?hitemsAdded ?hitemsRemoved ?hnotesAdded ?hambience ?hsound ?hgraphic <;> intro place <;>
      simp only [Node.choicesAmong_eq, field, get?, get?_append, get?_member?, get?_memberIf, idsMember,
        get?_choicesMember, String.reduceEq, ↓reduceIte, Option.or_none, Option.none_or, Option.getD_some]
    case hid => exact optionalString_written place (nonEmpty? id)
    case hkind => rw [Reading.kind, NodeKind.ofName?_name]; rfl
    case hchoices => exact read_unlessEmpty (fun h => h ▸ rfl) (hchoices _)
    case htext => exact prose_written place text
    case hspeaker => exact read_optional rfl (speaker_toJson place) speaker
    case hconditions => exact read_unlessEmpty (fun h => h ▸ rfl) (conditions_toJson place conditions)
    case hnext => exact optionalString_written place (nonEmpty? next)
    case hbranches => exact read_unlessEmpty (fun h => h ▸ rfl) (optionalList_map branch_toJson place branches)
    case heffects => exact read_unlessEmpty (fun h => h ▸ rfl) (effects_toJson place effects)
    case hitemsAdded => exact read_unlessEmpty (fun h => h ▸ rfl) (idList_strings place itemsAdded)
    case hitemsRemoved => exact read_unlessEmpty (fun h => h ▸ rfl) (idList_strings place itemsRemoved)
    case hnotesAdded => exact read_unlessEmpty (fun h => h ▸ rfl) (idList_strings place notesAdded)
    case hambience => exact read_optional rfl (cue_toJson place) ambience
    case hsound => exact read_optional rfl (cue_toJson place) sound
    case hgraphic => exact optionalString_written place (nonEmpty? graphic)

theorem Choice.read_toJson (place : String) : (choice : Choice) →
    (Choice.read place choice.toJson).result = .ok choice.normal
  | ⟨text, next, effects, reactions⟩ => by
    have hreactions := fun place => Choice.reactionItems_allToJson place 0 reactions
    rw [Choice.toJson, Choice.read, Choice.reactionsAmong_eq]
    refine Authored.choice_eq_ok ?hreactions ?htext ?hnext ?heffects <;> try intro place
    all_goals
      simp only [field, get?, get?_append, get?_member?, get?_memberIf, get?_reactionsMember,
        String.reduceEq, ↓reduceIte, Option.or_none, Option.none_or, Option.getD_some]
    case hreactions => exact read_unlessEmpty (fun h => h ▸ rfl) (hreactions _)
    case htext => rfl
    case hnext => exact optionalString_written place (nonEmpty? next)
    case heffects => exact read_unlessEmpty (fun h => h ▸ rfl) (effects_toJson place effects)

theorem Node.choiceItems_allToJson (place : String) (index : Nat) : (choices : List Choice) →
    (Node.choiceItems place index (Choice.allToJson choices)).result = .ok (Choice.allNormal choices)
  | [] => rfl
  | choice :: choices => by
    have hfirst := Choice.read_toJson (itemPlace place index) choice
    have hrest := Node.choiceItems_allToJson place (index + 1) choices
    rw [Choice.allToJson, Node.choiceItems, Attempt.result_bind_of_ok hfirst, Attempt.result_bind_of_ok hrest]
    rfl

theorem Choice.reactionItems_allToJson (place : String) (index : Nat) : (nodes : List Node) →
    (Choice.reactionItems place index (Node.allToJson nodes)).result = .ok (Node.allNormal nodes)
  | [] => rfl
  | node :: nodes => by
    have hfirst := Node.read_toJson (itemPlace place index) node
    have hrest := Choice.reactionItems_allToJson place (index + 1) nodes
    rw [Node.allToJson, Choice.reactionItems, Attempt.result_bind_of_ok hfirst,
      Attempt.result_bind_of_ok hrest]
    rfl
end

end BranchingStory
