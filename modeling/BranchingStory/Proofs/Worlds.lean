import BranchingStory.Play.Save
import BranchingStory.Proofs.Collections
import BranchingStory.Proofs.Reread

/-!
# Worlds that play alike

Two worlds are the same for a play if they have the same flags and hold the same ids over the same
catalogues; the order in which the ids came is no part of it. Everything a node or a choice does to two
such worlds leaves them the same, and a world that is loaded from a save is the same as the one that was
saved.
-/

namespace BranchingStory

/-! ## Flags -/

namespace Flags

/-- Flags that hold nothing but flag values. -/
def Scalar (flags : Flags) : Prop := ∃ values, flags = Flags.ofValues values

theorem ofValues_insert (values : FlagValues) (id : String) (value : FlagValue) :
    ofValues (Assoc.insert values id value) = Assoc.insert (ofValues values) id value.toJson := by
  induction values with
  | nil => rfl
  | cons entry rest ih =>
    obtain ⟨name, old⟩ := entry
    by_cases hname : name = id
    · simp [Assoc.insert, ofValues, hname]
    · simpa [Assoc.insert, ofValues, hname] using ih

theorem Scalar.insert {flags : Flags} (h : flags.Scalar) (id : String) (value : FlagValue) :
    Flags.Scalar (Assoc.insert flags id value.toJson) := by
  obtain ⟨values, rfl⟩ := h
  exact ⟨Assoc.insert values id value, (ofValues_insert values id value).symm⟩

theorem Scalar.setAll {flags : Flags} (h : flags.Scalar) (values : FlagValues) :
    Flags.Scalar (flags.setAll values) := by
  unfold Flags.setAll Assoc.overlay
  induction values generalizing flags with
  | nil => exact h
  | cons entry rest ih => exact ih (h.insert entry.1 entry.2)

end Flags

namespace World

variable {w v : World}

/-- The flags hold flag values, and both collections are what they should be. -/
structure Valid (w : World) : Prop where
  flags : w.flags.Scalar
  items : w.items.Valid
  notes : w.notes.Valid

/-- The same flags, and the same ids held over the same catalogues. -/
structure Same (w v : World) : Prop where
  flags : w.flags = v.flags
  items : w.items.Same v.items
  notes : w.notes.Same v.notes

/-! ## What a story does to a world -/

theorem apply_value (w : World) (n : Node) : (w.apply n).value =
    { w with
      items := (w.items.addAll n.itemsAdded).value.removeAll n.itemsRemoved
      notes := (w.notes.addAll n.notesAdded).value
      flags := w.flags.setAll n.effects } := rfl

theorem applyAll_flags (w : World) (nodes : List Node) :
    (w.applyAll nodes).value.flags = nodes.foldl (fun flags n => flags.setAll n.effects) w.flags := by
  induction nodes generalizing w with
  | nil => rfl
  | cons n nodes ih => exact ih (w.apply n).value

theorem Valid.applyEffects (h : w.Valid) (effects : FlagValues) : (w.applyEffects effects).value.Valid :=
  ⟨h.flags.setAll effects, h.items, h.notes⟩

theorem Valid.apply (h : w.Valid) (n : Node) : (w.apply n).value.Valid :=
  ⟨h.flags.setAll n.effects, (h.items.addAll n.itemsAdded).removeAll n.itemsRemoved,
    h.notes.addAll n.notesAdded⟩

theorem Valid.applyAll (h : w.Valid) (nodes : List Node) : (w.applyAll nodes).value.Valid := by
  induction nodes generalizing w with
  | nil => exact h
  | cons n nodes ih => exact ih (h.apply n)

theorem Valid.setFlag (h : w.Valid) (id : String) (value : FlagValue) : (w.setFlag id value.toJson).Valid :=
  ⟨h.flags.insert id value, h.items, h.notes⟩

theorem Valid.make (flags : FlagValues) (items held notes unlocked : List String) :
    (World.make (.ofValues flags) items held notes unlocked).value.Valid :=
  ⟨⟨flags, rfl⟩, Collection.Valid.make .items items held,
    Collection.Valid.make .notes notes unlocked⟩

theorem Same.applyEffects (h : w.Same v) (effects : FlagValues) :
    (w.applyEffects effects).value.Same (v.applyEffects effects).value :=
  ⟨congrArg (Flags.setAll · effects) h.flags, h.items, h.notes⟩

theorem Same.apply (h : w.Same v) (n : Node) : (w.apply n).value.Same (v.apply n).value :=
  ⟨congrArg (Flags.setAll · n.effects) h.flags, (h.items.addAll n.itemsAdded).removeAll n.itemsRemoved,
    h.notes.addAll n.notesAdded⟩

/-! ## Saving and loading -/

theorem flagMembers_ofValues (values : FlagValues) :
    SaveData.flagMembers (Flags.ofValues values) = .ok values := by
  induction values with
  | nil => rfl
  | cons entry rest ih =>
    obtain ⟨id, value⟩ := entry
    rw [Flags.ofValues, List.map_cons, ← Flags.ofValues, SaveData.flagMembers, FlagValue.ofJson?_toJson, ih]
    rfl

theorem idsOf_strings (member : String) (ids : List String) :
    SaveData.idsOf member (.strings ids) = .ok ids := by
  rw [Json.strings, SaveData.idsOf, Reading.allStrings?_map_string]

/-- A save is read without loss. -/
theorem read_save (timestamp : String) (story : Assoc Json) {values : FlagValues}
    (hflags : w.flags = .ofValues values) :
    SaveData.read (.object (w.save timestamp (some story))) =
      .ok { story := some story, items := w.items.ids, notes := w.notes.ids, flags := values,
            timestamp := some timestamp } := by
  let members := w.save timestamp (some story)
  have hversion : SaveData.isSupported (Reading.field members "version") = true :=
    show SaveData.isSupported (.int saveVersion) = true by decide
  have hstory : SaveData.storyOf (Reading.field members "story") = .ok (some story) := rfl
  have hitems : SaveData.idsOf "inventoryIds" (Reading.field members "inventoryIds") = .ok w.items.ids :=
    idsOf_strings _ _
  have hnotes : SaveData.idsOf "noteIds" (Reading.field members "noteIds") = .ok w.notes.ids :=
    idsOf_strings _ _
  have hread : SaveData.flagsOf (Reading.field members "flags") = .ok values :=
    (congrArg SaveData.flagMembers hflags).trans (flagMembers_ofValues values)
  have htime : SaveData.timestampOf (Reading.field members "timestamp") = some timestamp := rfl
  simp only [SaveData.read, members] at *
  rw [hversion, hstory, hitems, hnotes, hread, htime]
  rfl

theorem Same.load (hv : v.Valid) {story : Option (Assoc Json)} {values : FlagValues}
    {timestamp : Option String} (hflags : v.flags = .ofValues values)
    (hitems : w.items.catalogue = v.items.catalogue) (hnotes : w.notes.catalogue = v.notes.catalogue) :
    (w.load ⟨story, v.items.ids, v.notes.ids, values, timestamp⟩).value.Same v :=
  ⟨hflags.symm, Collection.Same.restore_ids hv.items hitems, Collection.Same.restore_ids hv.notes hnotes⟩

theorem Valid.load (w : World) (data : SaveData) : (w.load data).value.Valid :=
  ⟨⟨data.flags, rfl⟩, Collection.Valid.restore w.items data.items,
    Collection.Valid.restore w.notes data.notes⟩

end World
end BranchingStory
