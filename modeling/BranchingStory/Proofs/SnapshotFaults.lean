import BranchingStory.Proofs.Snapshot

/-!
# How reading a snapshot fails

A snapshot that is not well-formed is refused with a fault that says what is wrong where. Two things slip
through, each with a fault of its own kind that is none of the snapshot. A volume may be a whole number too
large for a double. Volumes occur in the cues of the reactions that the choices of a displayed prompt lead to,
at any depth of choices and reactions within each other, and nowhere else in a snapshot. And the version may be
a number with too many digits to be told in the refusal. Every other snapshot is read or refused as malformed.
-/

namespace BranchingStory

/-- The complaint is about what stands where something else has to stand. -/
def Complaint.isRefusal : Complaint → Bool
  | .unexpected _ _ | .duplicate _ _ => true
  | .volumeTooLarge | .tooDeep => false

namespace Reading

variable {α β : Type}

/-- Reading stops with a complaint. -/
def StopsWith (c : Complaint) (x : Reading α) : Prop := x.result = .error c

variable {c : Complaint}

theorem StopsWith.right {x : Reading α} {f : α → Reading β} (h : StopsWith c (x >>= f)) (hx : ¬ StopsWith c x) :
    ∃ a, x.result = .ok a ∧ StopsWith c (f a) :=
  (Attempt.result_bind_eq_error.mp h).resolve_left hx

theorem not_stops_pure (a : α) : ¬ StopsWith c (pure a : Reading α) := Attempt.pure_ne_error a _

theorem not_stops_tell (n : Notice) : ¬ StopsWith c (tell n) := by
  simp [StopsWith, tell]

theorem not_stops_bind {x : Reading α} {f : α → Reading β} (hx : ¬ StopsWith c x)
    (hf : ∀ a, ¬ StopsWith c (f a)) : ¬ StopsWith c (x >>= f) := Attempt.bind_ne_error hx hf

/-! ## What only refuses what it reads -/

theorem not_stops_mapM {γ : Type} {item : γ → Reading β} (hitem : ∀ a, ¬ StopsWith c (item a))
    (items : List γ) : ¬ StopsWith c (items.mapM item) := by
  induction items with
  | nil => exact not_stops_pure _
  | cons first rest ih =>
    rw [List.mapM_cons]
    exact not_stops_bind (hitem first) fun _ => not_stops_bind ih fun _ => not_stops_pure _

theorem not_stops_conditionMembers (place : String) (members : List (String × Json)) :
    ¬ StopsWith c (conditionMembers place members) := by
  induction members with
  | nil => exact not_stops_pure _
  | cons entry rest ih =>
    rw [conditionMembers]
    split
    · exact not_stops_bind ih fun tail => not_stops_pure _
    · exact not_stops_bind (not_stops_tell _) fun _ => ih

theorem not_stops_conditions (place : String) (j : Json) : ¬ StopsWith c (conditions place j) := by
  cases j with
  | null => exact not_stops_pure _
  | object members => exact not_stops_conditionMembers place members
  | _ => exact not_stops_bind (not_stops_tell _) fun _ => not_stops_pure _

section Readers

variable (hc : c.isRefusal = false)

include hc

theorem not_stops_expected (place : String) (what : Expected) :
    ¬ StopsWith c (expected place what : Reading α) := by
  intro h
  obtain rfl := Except.error.inj h
  cases hc

variable (place : String) (j : Json)

theorem not_stops_object : ¬ StopsWith c (object place j) := by
  cases j with
  | object members => exact not_stops_pure members
  | _ => exact not_stops_expected hc _ _

theorem not_stops_string : ¬ StopsWith c (string place j) := by
  cases j with
  | string s => exact not_stops_pure s
  | _ => exact not_stops_expected hc _ _

theorem not_stops_optionalString : ¬ StopsWith c (optionalString place j) := by
  cases j with
  | null | string _ => exact not_stops_pure _
  | _ => exact not_stops_expected hc _ _

theorem not_stops_idList : ¬ StopsWith c (idList place j) := by
  unfold idList
  split
  · exact not_stops_pure _
  · split
    · exact not_stops_pure _
    · exact not_stops_expected hc _ _
  · exact not_stops_expected hc _ _

theorem not_stops_prose : ¬ StopsWith c (prose place j) := by
  unfold prose
  split
  · exact not_stops_pure _
  · exact not_stops_pure _
  · split
    · exact not_stops_pure _
    · exact not_stops_expected hc _ _
  · exact not_stops_expected hc _ _

theorem not_stops_speaker : ¬ StopsWith c (speaker place j) := by
  cases j with
  | null | string _ => exact not_stops_pure _
  | object members =>
    refine not_stops_bind (not_stops_string hc _ _) fun id => ?_
    refine not_stops_bind (not_stops_optionalString hc _ _) fun name => ?_
    exact not_stops_bind (not_stops_optionalString hc _ _) fun portrait => not_stops_pure _
  | _ => exact not_stops_expected hc _ _

theorem not_stops_effectMembers (members : List (String × Json)) :
    ¬ StopsWith c (effectMembers place members) := by
  induction members with
  | nil => exact not_stops_pure _
  | cons entry rest ih =>
    rw [effectMembers]
    split
    · exact not_stops_bind ih fun tail => not_stops_pure _
    · exact not_stops_expected hc _ _

theorem not_stops_effects : ¬ StopsWith c (effects place j) := by
  cases j with
  | null => exact not_stops_pure _
  | object members => exact not_stops_effectMembers hc place members
  | _ => exact not_stops_expected hc _ _

theorem not_stops_branch : ¬ StopsWith c (branch place j) := by
  refine not_stops_bind (not_stops_object hc _ _) fun members => ?_
  refine not_stops_bind (not_stops_optionalString hc _ _) fun next => ?_
  exact not_stops_bind (not_stops_conditions _ _) fun conditions => not_stops_pure _

theorem not_stops_kind : ¬ StopsWith c (kind place j) := by
  unfold kind
  split
  · split
    · exact not_stops_pure _
    · exact not_stops_expected hc _ _
  · exact not_stops_expected hc _ _

theorem not_stops_optionalList {item : String → Json → Reading α}
    (hitem : ∀ place j, ¬ StopsWith c (item place j)) : ¬ StopsWith c (optionalList place item j) := by
  cases j with
  | null => exact not_stops_pure _
  | array items => exact not_stops_mapM (fun entry => hitem _ entry.1) items.zipIdx
  | _ => exact not_stops_expected hc _ _

end Readers
end Reading

/-! ## Volumes that are too large -/

/-- A cue whose volume no double can hold. -/
def Cue.Oversize (j : Json) : Prop :=
  ∃ members n, j = .object members ∧ Reading.field members "volume" = .number n ∧ n.toDouble? = none

mutual

/-- An authored node with a volume that is too large, in a cue of its own or among its choices. -/
inductive Node.Oversize : Json → Prop where
  | ambience {members : Assoc Json} (h : Cue.Oversize (Reading.field members "setAmbience")) :
      Node.Oversize (.object members)
  | sound {members : Assoc Json} (h : Cue.Oversize (Reading.field members "playSFX")) :
      Node.Oversize (.object members)
  | choice {members : Assoc Json} {items : List Json} {item : Json}
      (hitems : Reading.field members "choices" = .array items) (hitem : item ∈ items)
      (h : Choice.Oversize item) : Node.Oversize (.object members)

/-- An authored choice with such a volume in one of its reactions. -/
inductive Choice.Oversize : Json → Prop where
  | reaction {members : Assoc Json} {items : List Json} {item : Json}
      (hitems : Reading.field members "reaction" = .array items) (hitem : item ∈ items)
      (h : Node.Oversize item) : Choice.Oversize (.object members)

end

namespace Reading

theorem oversize_of_stops_cue {c : Complaint} (hc : c.isRefusal = false) {place : String} {j : Json}
    (h : StopsWith c (cue place j)) : c = .volumeTooLarge ∧ Cue.Oversize j := by
  cases j with
  | object members =>
    obtain ⟨_, _, h⟩ := h.right (not_stops_string hc _ _)
    rcases Attempt.result_bind_eq_error.mp h with hvolume | ⟨volume, _, h⟩
    · unfold volume at hvolume
      split at hvolume
      · exact absurd hvolume (not_stops_pure _)
      · rename_i n hn
        split at hvolume
        · exact absurd hvolume (not_stops_pure _)
        · rename_i hnone
          obtain rfl := Except.error.inj hvolume
          exact ⟨rfl, members, n, rfl, hn, hnone⟩
      · exact absurd hvolume (not_stops_expected hc _ _)
    · exact absurd h (not_stops_pure _)
  | null | string _ => exact absurd h (not_stops_pure _)
  | _ => exact absurd h (not_stops_expected hc _ _)

theorem not_oversize_of_cue_eq_ok {place : String} {j : Json} {found : Option Cue}
    (h : (cue place j).result = .ok found) : ¬ Cue.Oversize j := by
  rintro ⟨members, n, rfl, hn, hnone⟩
  obtain ⟨_, _, h⟩ := Attempt.result_bind_eq_ok.mp h
  obtain ⟨_, hvolume, _⟩ := Attempt.result_bind_eq_ok.mp h
  simp [volume, hn, hnone, fail] at hvolume

end Reading

namespace Authored

open Reading

variable {place : String} {members : Assoc Json}

section Stops

variable {c : Complaint} (hc : c.isRefusal = false)

include hc

/-- Reading a node stops among its choices, or at a volume that is too large in one of its cues. -/
theorem stops_node {choices : String → Reading (List Choice)} (h : StopsWith c (node place members choices)) :
    (∃ place, StopsWith c (choices place)) ∨ c = .volumeTooLarge ∧
      (Cue.Oversize (field members "setAmbience") ∨ Cue.Oversize (field members "playSFX")) := by
  obtain ⟨id, _, h⟩ := h.right (not_stops_optionalString hc _ _)
  obtain ⟨kind, _, h⟩ := h.right (not_stops_kind hc _ _)
  rcases Attempt.result_bind_eq_error.mp h with h | ⟨choices, _, h⟩
  · exact .inl ⟨_, h⟩
  · obtain ⟨text, _, h⟩ := StopsWith.right h (not_stops_prose hc _ _)
    obtain ⟨speaker, _, h⟩ := h.right (not_stops_speaker hc _ _)
    obtain ⟨conditions, _, h⟩ := h.right (not_stops_conditions _ _)
    obtain ⟨next, _, h⟩ := h.right (not_stops_optionalString hc _ _)
    obtain ⟨branches, _, h⟩ := h.right (not_stops_optionalList hc _ _ (not_stops_branch hc))
    obtain ⟨effects, _, h⟩ := h.right (not_stops_effects hc _ _)
    obtain ⟨itemsAdded, _, h⟩ := h.right (not_stops_idList hc _ _)
    obtain ⟨itemsRemoved, _, h⟩ := h.right (not_stops_idList hc _ _)
    obtain ⟨notesAdded, _, h⟩ := h.right (not_stops_idList hc _ _)
    rcases Attempt.result_bind_eq_error.mp h with h | ⟨ambience, _, h⟩
    · obtain ⟨hvolume, hover⟩ := oversize_of_stops_cue hc h
      exact .inr ⟨hvolume, .inl hover⟩
    · rcases Attempt.result_bind_eq_error.mp h with h | ⟨sound, _, h⟩
      · obtain ⟨hvolume, hover⟩ := oversize_of_stops_cue hc h
        exact .inr ⟨hvolume, .inr hover⟩
      · obtain ⟨graphic, _, h⟩ := StopsWith.right h (not_stops_optionalString hc _ _)
        exact absurd h (not_stops_pure _)

theorem stops_choice {reactions : Reading (List Node)} (h : StopsWith c (choice place members reactions)) :
    StopsWith c reactions := by
  rcases Attempt.result_bind_eq_error.mp h with h | ⟨reactions, _, h⟩
  · exact h
  · obtain ⟨text, _, h⟩ := StopsWith.right h (not_stops_string hc _ _)
    obtain ⟨next, _, h⟩ := h.right (not_stops_optionalString hc _ _)
    obtain ⟨effects, _, h⟩ := h.right (not_stops_effects hc _ _)
    exact absurd h (not_stops_pure _)

end Stops

theorem of_node_eq_ok {choices : String → Reading (List Choice)} {n : Node}
    (h : (node place members choices).result = .ok n) :
    (∃ place found, (choices place).result = .ok found) ∧ ¬ Cue.Oversize (field members "setAmbience") ∧
      ¬ Cue.Oversize (field members "playSFX") := by
  obtain ⟨id, _, h⟩ := Attempt.result_bind_eq_ok.mp h
  obtain ⟨kind, _, h⟩ := Attempt.result_bind_eq_ok.mp h
  obtain ⟨choices, hchoices, h⟩ := Attempt.result_bind_eq_ok.mp h
  obtain ⟨text, _, h⟩ := Attempt.result_bind_eq_ok.mp h
  obtain ⟨speaker, _, h⟩ := Attempt.result_bind_eq_ok.mp h
  obtain ⟨conditions, _, h⟩ := Attempt.result_bind_eq_ok.mp h
  obtain ⟨next, _, h⟩ := Attempt.result_bind_eq_ok.mp h
  obtain ⟨branches, _, h⟩ := Attempt.result_bind_eq_ok.mp h
  obtain ⟨effects, _, h⟩ := Attempt.result_bind_eq_ok.mp h
  obtain ⟨itemsAdded, _, h⟩ := Attempt.result_bind_eq_ok.mp h
  obtain ⟨itemsRemoved, _, h⟩ := Attempt.result_bind_eq_ok.mp h
  obtain ⟨notesAdded, _, h⟩ := Attempt.result_bind_eq_ok.mp h
  obtain ⟨ambience, hambience, h⟩ := Attempt.result_bind_eq_ok.mp h
  obtain ⟨sound, hsound, _⟩ := Attempt.result_bind_eq_ok.mp h
  exact ⟨⟨_, choices, hchoices⟩, not_oversize_of_cue_eq_ok hambience, not_oversize_of_cue_eq_ok hsound⟩

end Authored

open Reading (StopsWith)

section Stops

variable {c : Complaint}

mutual

theorem Node.oversize_of_stops (hc : c.isRefusal = false) {place : String} :
    {j : Json} → StopsWith c (Node.read place j) → c = .volumeTooLarge ∧ Node.Oversize j
  | .object members, h => by
    rcases Authored.stops_node hc h with ⟨place, h⟩ | ⟨hvolume, h | h⟩
    · obtain ⟨hvolume, items, item, hitems, hitem, hover⟩ := Node.exists_of_stops_choicesAmong hc h
      exact ⟨hvolume, .choice hitems hitem hover⟩
    · exact ⟨hvolume, .ambience h⟩
    · exact ⟨hvolume, .sound h⟩
  | .null, h | .bool _, h | .number _, h | .string _, h | .array _, h =>
    absurd h (Reading.not_stops_expected hc _ _)

theorem Node.exists_of_stops_choicesAmong (hc : c.isRefusal = false) {place : String} : {members : List (String × Json)} →
    StopsWith c (Node.choicesAmong place members) → c = .volumeTooLarge ∧
      ∃ items item, Reading.field members "choices" = .array items ∧ item ∈ items ∧ Choice.Oversize item
  | [], h => absurd h (Reading.not_stops_pure _)
  | (key, value) :: rest, h => by
    by_cases hkey : key = "choices"
    · rw [Node.choicesAmong, if_pos hkey] at h
      obtain ⟨hvolume, items, item, hvalue, hitem, hover⟩ := Node.exists_of_stops_choicesOf hc h
      exact ⟨hvolume, items, item, by simpa [Reading.field, Assoc.get?, hkey] using hvalue, hitem, hover⟩
    · rw [Node.choicesAmong, if_neg hkey] at h
      obtain ⟨hvolume, items, item, hfield, hitem, hover⟩ := Node.exists_of_stops_choicesAmong hc h
      exact ⟨hvolume, items, item, by simpa [Reading.field, Assoc.get?, hkey] using hfield, hitem, hover⟩

theorem Node.exists_of_stops_choicesOf (hc : c.isRefusal = false) {place : String} : {j : Json} →
    StopsWith c (Node.choicesOf place j) → c = .volumeTooLarge ∧
      ∃ items item, j = .array items ∧ item ∈ items ∧ Choice.Oversize item
  | .array items, h =>
    have ⟨hvolume, item, hitem, hover⟩ := Node.exists_of_stops_choiceItems hc h
    ⟨hvolume, items, item, rfl, hitem, hover⟩
  | .null, h => absurd h (Reading.not_stops_pure _)
  | .bool _, h | .number _, h | .string _, h | .object _, h => absurd h (Reading.not_stops_expected hc _ _)

theorem Node.exists_of_stops_choiceItems (hc : c.isRefusal = false) {place : String} {index : Nat} : {items : List Json} →
    StopsWith c (Node.choiceItems place index items) → c = .volumeTooLarge ∧ ∃ item ∈ items, Choice.Oversize item
  | [], h => absurd h (Reading.not_stops_pure _)
  | item :: items, h => by
    rcases Attempt.result_bind_eq_error.mp h with h | ⟨choice, _, h⟩
    · obtain ⟨hvolume, hover⟩ := Choice.oversize_of_stops hc h
      exact ⟨hvolume, item, List.mem_cons_self, hover⟩
    · rcases Attempt.result_bind_eq_error.mp h with h | ⟨choices, _, h⟩
      · obtain ⟨hvolume, other, hother, hover⟩ := Node.exists_of_stops_choiceItems hc h
        exact ⟨hvolume, other, List.mem_cons_of_mem item hother, hover⟩
      · exact absurd h (Reading.not_stops_pure _)

theorem Choice.oversize_of_stops (hc : c.isRefusal = false) {place : String} :
    {j : Json} → StopsWith c (Choice.read place j) → c = .volumeTooLarge ∧ Choice.Oversize j
  | .object members, h => by
    obtain ⟨hvolume, items, item, hitems, hitem, hover⟩ :=
      Choice.exists_of_stops_reactionsAmong hc (Authored.stops_choice hc h)
    exact ⟨hvolume, .reaction hitems hitem hover⟩
  | .null, h | .bool _, h | .number _, h | .string _, h | .array _, h =>
    absurd h (Reading.not_stops_expected hc _ _)

theorem Choice.exists_of_stops_reactionsAmong (hc : c.isRefusal = false) {place : String} : {members : List (String × Json)} →
    StopsWith c (Choice.reactionsAmong place members) → c = .volumeTooLarge ∧
      ∃ items item, Reading.field members "reaction" = .array items ∧ item ∈ items ∧ Node.Oversize item
  | [], h => absurd h (Reading.not_stops_pure _)
  | (key, value) :: rest, h => by
    by_cases hkey : key = "reaction"
    · rw [Choice.reactionsAmong, if_pos hkey] at h
      obtain ⟨hvolume, items, item, hvalue, hitem, hover⟩ := Choice.exists_of_stops_reactionsOf hc h
      exact ⟨hvolume, items, item, by simpa [Reading.field, Assoc.get?, hkey] using hvalue, hitem, hover⟩
    · rw [Choice.reactionsAmong, if_neg hkey] at h
      obtain ⟨hvolume, items, item, hfield, hitem, hover⟩ := Choice.exists_of_stops_reactionsAmong hc h
      exact ⟨hvolume, items, item, by simpa [Reading.field, Assoc.get?, hkey] using hfield, hitem, hover⟩

theorem Choice.exists_of_stops_reactionsOf (hc : c.isRefusal = false) {place : String} : {j : Json} →
    StopsWith c (Choice.reactionsOf place j) → c = .volumeTooLarge ∧
      ∃ items item, j = .array items ∧ item ∈ items ∧ Node.Oversize item
  | .array items, h =>
    have ⟨hvolume, item, hitem, hover⟩ := Choice.exists_of_stops_reactionItems hc h
    ⟨hvolume, items, item, rfl, hitem, hover⟩
  | .null, h => absurd h (Reading.not_stops_pure _)
  | .bool _, h | .number _, h | .string _, h | .object _, h => absurd h (Reading.not_stops_expected hc _ _)

theorem Choice.exists_of_stops_reactionItems (hc : c.isRefusal = false) {place : String} {index : Nat} : {items : List Json} →
    StopsWith c (Choice.reactionItems place index items) → c = .volumeTooLarge ∧ ∃ item ∈ items, Node.Oversize item
  | [], h => absurd h (Reading.not_stops_pure _)
  | item :: items, h => by
    rcases Attempt.result_bind_eq_error.mp h with h | ⟨node, _, h⟩
    · obtain ⟨hvolume, hover⟩ := Node.oversize_of_stops hc h
      exact ⟨hvolume, item, List.mem_cons_self, hover⟩
    · rcases Attempt.result_bind_eq_error.mp h with h | ⟨nodes, _, h⟩
      · obtain ⟨hvolume, other, hother, hover⟩ := Choice.exists_of_stops_reactionItems hc h
        exact ⟨hvolume, other, List.mem_cons_of_mem item hother, hover⟩
      · exact absurd h (Reading.not_stops_pure _)

end

end Stops

/-! ## Reading on past what is nested -/

theorem Node.exists_of_choiceItems_eq_ok {place : String} {index : Nat} {items : List Json} {choices : List Choice}
    (h : (Node.choiceItems place index items).result = .ok choices) {item : Json} (hitem : item ∈ items) :
    ∃ place choice, (Choice.read place item).result = .ok choice := by
  induction items generalizing index choices with
  | nil => exact absurd hitem List.not_mem_nil
  | cons first rest ih =>
    obtain ⟨choice, hchoice, h⟩ := Attempt.result_bind_eq_ok.mp h
    obtain ⟨tail, htail, _⟩ := Attempt.result_bind_eq_ok.mp h
    rcases List.mem_cons.mp hitem with rfl | hrest
    · exact ⟨_, choice, hchoice⟩
    · exact ih htail hrest

theorem Choice.exists_of_reactionItems_eq_ok {place : String} {index : Nat} {items : List Json}
    {nodes : List Node} (h : (Choice.reactionItems place index items).result = .ok nodes) {item : Json}
    (hitem : item ∈ items) : ∃ place node, (Node.read place item).result = .ok node := by
  induction items generalizing index nodes with
  | nil => exact absurd hitem List.not_mem_nil
  | cons first rest ih =>
    obtain ⟨node, hnode, h⟩ := Attempt.result_bind_eq_ok.mp h
    obtain ⟨tail, htail, _⟩ := Attempt.result_bind_eq_ok.mp h
    rcases List.mem_cons.mp hitem with rfl | hrest
    · exact ⟨_, node, hnode⟩
    · exact ih htail hrest

mutual

/-- A volume that is too large is never read over, however deep it lies. -/
theorem Node.Oversize.not_read : {j : Json} → Node.Oversize j → ∀ place n, (Node.read place j).result ≠ .ok n
  | _, .ambience hcue, _, _ => fun h => (Authored.of_node_eq_ok h).2.1 hcue
  | _, .sound hcue, _, _ => fun h => (Authored.of_node_eq_ok h).2.2 hcue
  | _, .choice hitems hitem hover, _, _ => fun h => by
    obtain ⟨⟨place, choices, hchoices⟩, _, _⟩ := Authored.of_node_eq_ok h
    rw [Node.choicesAmong_eq, hitems] at hchoices
    obtain ⟨place, choice, hchoice⟩ := Node.exists_of_choiceItems_eq_ok hchoices hitem
    exact Choice.Oversize.not_read hover place choice hchoice

theorem Choice.Oversize.not_read : {j : Json} → Choice.Oversize j →
    ∀ place choice, (Choice.read place j).result ≠ .ok choice
  | _, .reaction hitems hitem hover, _, _ => fun h => by
    obtain ⟨reactions, hreactions, _⟩ := Attempt.result_bind_eq_ok.mp h
    rw [Choice.reactionsAmong_eq, hitems] at hreactions
    obtain ⟨place, node, hnode⟩ := Choice.exists_of_reactionItems_eq_ok hreactions hitem
    exact Node.Oversize.not_read hover place node hnode

end

/-! ## Blocks and snapshots -/

/-- A prompt's block with a volume that is too large in a reaction to one of its choices. -/
def Block.Oversize (j : Json) : Prop :=
  ∃ members items item, j = .object members ∧
    Reading.field members "type" = .string NodeKind.dialogueChoice.name ∧
    Reading.field members "choices" = .array items ∧ item ∈ items ∧ Choice.Oversize item

/-- A snapshot with a volume that is too large, in one of the blocks for which there is room. -/
def History.Oversize (bound : Int) (snapshot : Json) : Prop :=
  ∃ members items item, snapshot = .object members ∧ Reading.field members "renderedBlocks" = .array items ∧
    item ∈ Restoring.kept bound items ∧ Block.Oversize item

/-- A snapshot whose version has too many digits to be told. -/
def History.LongVersion (snapshot : Json) : Prop :=
  ∃ members version, snapshot = .object members ∧ Reading.field members "version" = .int version ∧
    Numeral.canBeTold version = false

namespace Restoring

open Reading

theorem recentBlocks_ne_error (g : Graph) (items : List Json) (fault : RestoreFault) :
    (recentBlocks g items).result ≠ .error fault := by
  induction items with
  | nil => exact Attempt.pure_ne_error _ _
  | cons item items ih =>
    unfold recentBlocks
    dsimp only
    split
    · exact Attempt.bind_ne_error ih fun rest => Attempt.pure_ne_error _ _
    · exact ih

/-- The fault is none of the snapshot. -/
def IsForeign (fault : RestoreFault) : Prop := ∀ found, fault ≠ .snapshot found

variable {fault : RestoreFault} (hforeign : IsForeign fault)

include hforeign

theorem refuse_ne_error {α : Type} (found : SnapshotFault) :
    (refuse found : Restoring α).result ≠ .error fault :=
  fun h => hforeign found (Except.error.inj h).symm

theorem optionalString_ne_error (found : SnapshotFault) (j : Json) :
    (Restoring.optionalString found j).result ≠ .error fault := by
  cases j with
  | null | string _ => exact Attempt.pure_ne_error _ _
  | _ => exact refuse_ne_error hforeign _

theorem prose_ne_error (index : Nat) (j : Json) : (Restoring.prose index j).result ≠ .error fault := by
  unfold Restoring.prose
  split
  · exact Attempt.pure_ne_error _ _
  · exact Attempt.pure_ne_error _ _
  · split
    · exact Attempt.pure_ne_error _ _
    · exact refuse_ne_error hforeign _
  · exact refuse_ne_error hforeign _

theorem identityTexts_ne_error (index : Nat) (id : Option String) (name portrait : Json) :
    (identityTexts index id name portrait).result ≠ .error fault := by
  unfold identityTexts
  split
  · split
    · split
      · exact Attempt.pure_ne_error _ _
      · exact refuse_ne_error hforeign _
    · exact Attempt.pure_ne_error _ _
  · exact refuse_ne_error hforeign _

theorem identity_ne_error (index : Nat) (j : Json) : (Restoring.identity index j).result ≠ .error fault := by
  cases j with
  | null => exact Attempt.pure_ne_error _ _
  | object members =>
    refine Attempt.bind_ne_error (optionalString_ne_error hforeign _ _) fun id => ?_
    exact Attempt.bind_ne_error (identityTexts_ne_error hforeign _ _ _ _) fun found => Attempt.pure_ne_error _ _
  | _ => exact refuse_ne_error hforeign _

theorem kind_ne_error (index : Nat) (j : Json) : (Restoring.kind index j).result ≠ .error fault := by
  unfold Restoring.kind
  split
  · split
    · exact Attempt.pure_ne_error _ _
    · exact refuse_ne_error hforeign _
  · exact refuse_ne_error hforeign _

theorem position_ne_error (g : Graph) (members : Assoc Json) :
    (Restoring.position g members).result ≠ .error fault := by
  unfold Restoring.position
  split
  · exact Attempt.pure_ne_error _ _
  · exact Attempt.pure_ne_error _ _
  · exact Attempt.pure_ne_error _ _
  · exact refuse_ne_error hforeign _

theorem of_checkVersion_eq_error {j : Json} (h : (checkVersion j).result = .error fault) :
    fault = .versionTooLong ∧ ∃ version, j = .int version ∧ Numeral.canBeTold version = false := by
  cases j with
  | null => cases h
  | number n =>
    cases n with
    | int version =>
      by_cases hpresent : version = snapshotVersion
      · rw [checkVersion, if_pos hpresent] at h
        cases h
      · rw [checkVersion, if_neg hpresent] at h
        cases htold : Numeral.canBeTold version with
        | true =>
          rw [htold, if_pos rfl] at h
          exact absurd h (refuse_ne_error hforeign _)
        | false =>
          rw [htold, if_neg Bool.false_ne_true] at h
          exact ⟨(Except.error.inj h).symm, version, rfl, htold⟩
    | double d => exact absurd h (refuse_ne_error hforeign _)
  | _ => exact absurd h (refuse_ne_error hforeign _)

omit hforeign in
theorem ofReading_eq_error_iff {α : Type} {x : Reading α} :
    (ofReading x).result = .error fault ↔ ∃ c, x.result = .error c ∧ RestoreFault.ofComplaint c = fault := by
  rw [ofReading, Attempt.result_mapError]
  cases x.result <;> simp [Except.mapError]

/-- A complaint about an authored part is no fault of the snapshot if it is not about what stands there. -/
theorem of_ofReading_eq_error {α : Type} {x : Reading α} (h : (ofReading x).result = .error fault) :
    ∃ c, c.isRefusal = false ∧ StopsWith c x ∧ RestoreFault.ofComplaint c = fault := by
  obtain ⟨c, hc, rfl⟩ := ofReading_eq_error_iff.mp h
  cases c with
  | volumeTooLarge => exact ⟨_, rfl, hc, rfl⟩
  | tooDeep => exact ⟨_, rfl, hc, rfl⟩
  | _ => exact absurd rfl (hforeign _)

theorem of_choices_eq_error {index : Nat} {kind : NodeKind} {j : Json}
    (h : (Restoring.choices Node.choicesOf index kind j).result = .error fault) :
    fault = .volumeTooLarge ∧ kind = .dialogueChoice ∧
      ∃ items item, j = .array items ∧ item ∈ items ∧ Choice.Oversize item := by
  cases j with
  | array items =>
    rw [Restoring.choices] at h
    split at h
    · rename_i hkind
      obtain ⟨c, hc, hstops, rfl⟩ := of_ofReading_eq_error hforeign h
      obtain ⟨rfl, item, hitem, hover⟩ := Node.exists_of_stops_choiceItems hc hstops
      exact ⟨rfl, hkind, items, item, rfl, hitem, hover⟩
    · cases h
  | _ => cases h

theorem of_block_eq_error {index : Nat} {j : Json}
    (h : (Restoring.block Node.choicesOf index j).result = .error fault) :
    fault = .volumeTooLarge ∧ Block.Oversize j := by
  cases j with
  | object members =>
    rcases Attempt.result_bind_eq_error.mp h with h | ⟨id, _, h⟩
    · exact absurd h (optionalString_ne_error hforeign _ _)
    rcases Attempt.result_bind_eq_error.mp h with h | ⟨kind, hkind, h⟩
    · exact absurd h (kind_ne_error hforeign _ _)
    rcases Attempt.result_bind_eq_error.mp h with h | ⟨text, _, h⟩
    · exact absurd h (prose_ne_error hforeign _ _)
    rcases Attempt.result_bind_eq_error.mp h with h | ⟨frozen, _, h⟩
    · exact absurd h (identity_ne_error hforeign _ _)
    rcases Attempt.result_bind_eq_error.mp h with h | ⟨speaker, _, h⟩
    · obtain ⟨c, hc, hstops, _⟩ := of_ofReading_eq_error hforeign h
      exact absurd hstops (not_stops_speaker hc _ _)
    rcases Attempt.result_bind_eq_error.mp h with h | ⟨choices, _, h⟩
    · obtain ⟨hfault, rfl, items, item, hitems, hitem, hover⟩ := of_choices_eq_error hforeign h
      exact ⟨hfault, members, items, item, rfl, eq_name_of_kind hkind, hitems, hitem, hover⟩
    rcases Attempt.result_bind_eq_error.mp h with h | ⟨graphic, _, h⟩
    · exact absurd h (optionalString_ne_error hforeign _ _)
    · cases h
  | _ => exact absurd h (refuse_ne_error hforeign _)

theorem of_blocks_eq_error {index : Nat} {items : List Json}
    (h : (Restoring.blocks Node.choicesOf index items).result = .error fault) :
    fault = .volumeTooLarge ∧ ∃ item ∈ items, Block.Oversize item := by
  induction items generalizing index with
  | nil => cases h
  | cons item items ih =>
    rcases Attempt.result_bind_eq_error.mp h with h | ⟨first, _, h⟩
    · obtain ⟨hfault, hover⟩ := of_block_eq_error hforeign h
      exact ⟨hfault, item, List.mem_cons_self, hover⟩
    · rcases Attempt.result_bind_eq_error.mp h with h | ⟨rest, _, h⟩
      · obtain ⟨hfault, other, hother, hover⟩ := ih h
        exact ⟨hfault, other, List.mem_cons_of_mem item hother, hover⟩
      · cases h

theorem of_historyBlocks_eq_error {g : Graph} {bound : Int} {members : Assoc Json}
    (h : (historyBlocks Node.choicesOf g bound members).result = .error fault) :
    fault = .volumeTooLarge ∧ History.Oversize bound (.object members) ∨
      fault = .versionTooLong ∧ History.LongVersion (.object members) := by
  unfold historyBlocks at h
  split_ifs at h
  · split at h
    · exact absurd h (refuse_ne_error hforeign _)
    · exact absurd h (recentBlocks_ne_error _ _ _)
    · exact absurd h (refuse_ne_error hforeign _)
  · rcases Attempt.result_bind_eq_error.mp h with h | ⟨_, _, h⟩
    · obtain ⟨hfault, version, hversion, htold⟩ := of_checkVersion_eq_error hforeign h
      exact .inr ⟨hfault, members, version, rfl, hversion, htold⟩
    · split at h
      · rename_i items hitems
        obtain ⟨hfault, item, hitem, hover⟩ := of_blocks_eq_error hforeign h
        exact .inl ⟨hfault, members, items, item, rfl, hitems, hitem, hover⟩
      · exact absurd h (refuse_ne_error hforeign _)

end Restoring

namespace History

/-- Reading a snapshot fails with a fault that is none of the snapshot only at a volume that is too large, or at a
version that cannot be told. -/
theorem of_ofSnapshot_eq_error {g : Graph} {bound : Int} (hbound : 1 ≤ bound) {snapshot : Json}
    {fault : RestoreFault} (hforeign : Restoring.IsForeign fault)
    (h : (ofSnapshot g bound snapshot).result = .error fault) :
    fault = .volumeTooLarge ∧ Oversize bound snapshot ∨ fault = .versionTooLong ∧ LongVersion snapshot := by
  cases snapshot with
  | object members =>
    rcases Attempt.result_bind_eq_error.mp h with h | ⟨current, _, h⟩
    · exact absurd h (Restoring.position_ne_error hforeign _ _)
    rcases Attempt.result_bind_eq_error.mp h with h | ⟨blocks, _, h⟩
    · exact Restoring.of_historyBlocks_eq_error hforeign h
    rcases Attempt.result_bind_eq_error.mp h with h | ⟨_, _, h⟩
    · cases h
    · have hmake : make? current blocks ((g.find? current).any Node.isPrompt) bound =
          some ⟨current, latest bound.toNat blocks, (g.find? current).any Node.isPrompt, bound.toNat⟩ :=
        make?_eq_some.mpr ⟨hbound, rfl⟩
      rw [hmake] at h
      cases h
  | _ => exact absurd h (Restoring.refuse_ne_error hforeign _)

end History

theorem Restoring.not_oversize_of_block_eq_ok {index : Nat} {j : Json} {b : Block}
    (h : (Restoring.block Node.choicesOf index j).result = .ok b) : ¬ Block.Oversize j := by
  rintro ⟨members, items, item, rfl, htype, hitems, hitem, hover⟩
  obtain ⟨id, _, h⟩ := Attempt.result_bind_eq_ok.mp h
  obtain ⟨kind, hkind, h⟩ := Attempt.result_bind_eq_ok.mp h
  obtain ⟨text, _, h⟩ := Attempt.result_bind_eq_ok.mp h
  obtain ⟨frozen, _, h⟩ := Attempt.result_bind_eq_ok.mp h
  obtain ⟨speaker, _, h⟩ := Attempt.result_bind_eq_ok.mp h
  obtain ⟨choices, hchoices, _⟩ := Attempt.result_bind_eq_ok.mp h
  rw [htype, kind_name] at hkind
  obtain rfl := Except.ok.inj hkind
  rw [hitems, Restoring.choices, if_pos rfl, ofReading, Attempt.result_mapError, Node.choicesOf] at hchoices
  cases hread : (Node.choiceItems (blockPlace index ++ ".choices") 0 items).result with
  | ok found =>
    obtain ⟨place, choice, hchoice⟩ := Node.exists_of_choiceItems_eq_ok hread hitem
    exact hover.not_read place choice hchoice
  | error complaint =>
    rw [hread] at hchoices
    cases hchoices

theorem Restoring.not_oversize_of_blocks_eq_ok {index : Nat} {items : List Json} {bs : List Block}
    (h : (Restoring.blocks Node.choicesOf index items).result = .ok bs) : ∀ item ∈ items, ¬ Block.Oversize item := by
  induction items generalizing index bs with
  | nil => exact fun item hitem => absurd hitem List.not_mem_nil
  | cons first items ih =>
    obtain ⟨b, hb, h⟩ := Attempt.result_bind_eq_ok.mp h
    obtain ⟨rest, hrest, _⟩ := Attempt.result_bind_eq_ok.mp h
    intro item hitem
    rcases List.mem_cons.mp hitem with rfl | hitem
    · exact not_oversize_of_block_eq_ok hb
    · exact ih hrest item hitem

namespace History

theorem not_oversize_of_ofSnapshot_eq_ok {g : Graph} {bound : Int} {snapshot : Json} {h : History}
    (hread : (ofSnapshot g bound snapshot).result = .ok h) : ¬ Oversize bound snapshot := by
  rintro ⟨members, items, item, rfl, hitems, hitem, hover⟩
  obtain ⟨current, blocks, _, hblocks, _⟩ := ofSnapshot_object_eq_ok.mp hread
  have hmember : Assoc.contains members "renderedBlocks" = true := by
    rw [Assoc.contains]
    cases hget : Assoc.get? members "renderedBlocks" with
    | some value => rfl
    | none => simp [Reading.field, hget] at hitems
  unfold Restoring.historyBlocks at hblocks
  rw [hmember, hitems, if_neg (by simp)] at hblocks
  obtain ⟨_, _, hblocks⟩ := Attempt.result_bind_eq_ok.mp hblocks
  exact Restoring.not_oversize_of_blocks_eq_ok hblocks item hitem hover

theorem not_longVersion_of_ofSnapshot_eq_ok {g : Graph} {bound : Int} {snapshot : Json} {h : History}
    (hread : (ofSnapshot g bound snapshot).result = .ok h) : ¬ LongVersion snapshot := by
  rintro ⟨members, version, rfl, hversion, htold⟩
  obtain ⟨current, blocks, _, hblocks, _⟩ := ofSnapshot_object_eq_ok.mp hread
  unfold Restoring.historyBlocks at hblocks
  rw [hversion, if_neg (by simp [Json.int])] at hblocks
  obtain ⟨_, hchecked, _⟩ := Attempt.result_bind_eq_ok.mp hblocks
  have hother : version ≠ snapshotVersion := by
    rintro rfl
    have hshort : Numeral.canBeTold snapshotVersion = true := decide_eq_true (Number.one_lt_powerOfTen (by decide))
    cases hshort.symm.trans htold
  rw [Json.int, Restoring.checkVersion, if_neg hother, htold, if_neg Bool.false_ne_true] at hchecked
  cases hchecked

end History
end BranchingStory
