import BranchingStory.Proofs.Steering
import BranchingStory.Proofs.Worlds

/-!
# What a node does to the world

A node adds items, removes items, adds notes and sets flags, in this order, and its lists may overlap in every way: an
item that it adds and removes is gone afterwards, whether it was held or not. All of it is told by what was there before
and what the node declares. So carrying out the node again finds nothing left to do: every id that would be added is
there or is removed again, and every flag has its last value already, in its place.
-/

namespace BranchingStory

/-! ## Writing over a map -/

namespace Assoc

variable {α : Type}

theorem keys_insert (m : Assoc α) (key : String) (value : α) :
    keys (insert m key value) = if key ∈ keys m then keys m else keys m ++ [key] := by
  induction m with
  | nil => rfl
  | cons entry rest ih =>
    obtain ⟨name, old⟩ := entry
    by_cases hname : name = key
    · simp [insert, keys, hname]
    · have hrest : keys (insert ((name, old) :: rest) key value) = name :: keys (insert rest key value) := by
        simp [insert, keys, hname]
      have hmem : key ∈ keys ((name, old) :: rest) ↔ key ∈ keys rest := by
        simp [keys, Ne.symm hname]
      rw [hrest, ih]
      simp only [hmem]
      split <;> rfl

theorem mem_keys_insert {m : Assoc α} {key name : String} {value : α} :
    key ∈ keys (insert m name value) ↔ key ∈ keys m ∨ key = name := by
  rw [keys_insert]
  split
  · rename_i hname
    exact ⟨.inl, fun h => h.elim (fun h => h) fun h => h ▸ hname⟩
  · rw [List.mem_append, List.mem_singleton]

theorem overlay_cons (m : Assoc α) (entry : String × α) (new : Assoc α) :
    overlay m (entry :: new) = overlay (insert m entry.1 entry.2) new := rfl

theorem keys_overlay (m new : Assoc α) :
    keys (overlay m new) = keys m ++ ((keys new).filter (· ∉ keys m)).eraseDups := by
  induction new generalizing m with
  | nil => simp [overlay, keys]
  | cons entry rest ih =>
    obtain ⟨key, value⟩ := entry
    have hkeys : keys ((key, value) :: rest) = key :: keys rest := rfl
    rw [overlay_cons, ih, keys_insert, hkeys]
    by_cases hkey : key ∈ keys m
    · simp [hkey]
    · rw [if_neg hkey, List.filter_cons_of_pos (by simpa using hkey), List.eraseDups_cons, List.filter_filter,
        List.append_assoc, List.singleton_append]
      congr 3
      apply List.filter_congr
      intro other _
      simp [and_comm, beq_eq_decide]

theorem insert_insert (m : Assoc α) (key : String) (first second : α) :
    insert (insert m key first) key second = insert m key second := by
  induction m with
  | nil => simp [insert]
  | cons entry rest ih =>
    obtain ⟨name, old⟩ := entry
    by_cases hname : name = key <;> simp [insert, hname, ih]

/-- A name that has its place is written at any time. -/
theorem insert_comm {m : Assoc α} {key other : String} (hkey : key ∈ keys m) (hne : key ≠ other)
    (value changed : α) :
    insert (insert m key value) other changed = insert (insert m other changed) key value := by
  induction m with
  | nil => cases hkey
  | cons entry rest ih =>
    obtain ⟨name, old⟩ := entry
    by_cases hname : name = key
    · subst hname
      simp [insert, hne]
    · have hrest : key ∈ keys rest := by
        simpa [keys, Ne.symm hname] using hkey
      by_cases hother : name = other
      · subst hother
        simp [insert, hname]
      · simp [insert, hname, hother, ih hrest]

/-- Writing a name that has its place and is written again later makes no difference. -/
theorem overlay_insert {m new : Assoc α} {key : String} (hkey : key ∈ keys m) (hnew : key ∈ keys new) (value : α) :
    overlay (insert m key value) new = overlay m new := by
  induction new generalizing m with
  | nil => cases hnew
  | cons entry rest ih =>
    obtain ⟨name, changed⟩ := entry
    rw [overlay_cons, overlay_cons]
    by_cases hname : name = key
    · subst hname
      rw [insert_insert]
    · have hrest : key ∈ keys rest := by
        simpa [keys, Ne.symm hname] using hnew
      rw [insert_comm hkey (Ne.symm hname), ih (mem_keys_insert.mpr (.inl hkey)) hrest]

theorem mem_keys_overlay {m : Assoc α} {key : String} (new : Assoc α) (h : key ∈ keys m) :
    key ∈ keys (overlay m new) := by
  rw [keys_overlay]
  exact List.mem_append_left _ h

theorem get?_overlay_of_not_mem {new : Assoc α} {key : String} (h : key ∉ keys new) (m : Assoc α) :
    get? (overlay m new) key = get? m key := by
  induction new generalizing m with
  | nil => rfl
  | cons entry rest ih =>
    have hparts := not_or.mp (mt List.mem_cons.mpr h)
    rw [overlay_cons, ih hparts.2, get?_insert, if_neg (Ne.symm hparts.1)]

theorem overlay_overlay (m new : Assoc α) : overlay (overlay m new) new = overlay m new := by
  induction new generalizing m with
  | nil => rfl
  | cons entry rest ih =>
    obtain ⟨key, value⟩ := entry
    rw [overlay_cons m, overlay_cons]
    let written := overlay (insert m key value) rest
    have hplace : key ∈ keys (insert m key value) := mem_keys_insert.mpr (.inr rfl)
    -- The first of the writes is repeated later in the row, or it stands as it was written.
    by_cases hlater : key ∈ keys rest
    · rw [overlay_insert (mem_keys_overlay rest hplace) hlater, ih]
    · have hstands : get? written key = some value := by
        rw [get?_overlay_of_not_mem hlater, get?_insert, if_pos rfl]
      rw [insert_get? hstands, ih]

end Assoc

/-! ## Adding and removing -/

namespace Collection

variable {c : Collection}

theorem exists_addAll_eq (c : Collection) (ids : List String) :
    ∃ new, (c.addAll ids).value = { c with held := c.held ++ new } ∧ ∀ id ∈ new, id ∉ c.held := by
  induction ids generalizing c with
  | nil => exact ⟨[], by simp [addAll], fun id hid => absurd hid List.not_mem_nil⟩
  | cons id ids ih =>
    obtain ⟨new, hall, hnew⟩ := ih (c.add id).value
    by_cases hadds : c.accepts id = true ∧ id ∉ c.held
    · have hadd : (c.add id).value = { c with held := c.held ++ [id] } := by
        simp [add, hadds.1, hadds.2]
      rw [hadd] at hall hnew
      refine ⟨id :: new, ?_, List.forall_mem_cons.mpr ⟨hadds.2, fun other hother hheld => ?_⟩⟩
      · rw [addAll, Told.value_bind, hadd, hall, List.append_assoc, List.singleton_append]
      · exact hnew other hother (List.mem_append_left _ hheld)
    · have hadd : (c.add id).value = c := by
        by_cases haccept : c.accepts id = true
        · have hheld : id ∈ c.held := by simpa [haccept] using hadds
          simp [add, haccept, hheld]
        · simp [add, haccept]
      rw [hadd] at hall hnew
      exact ⟨new, by rw [addAll, Told.value_bind, hadd, hall], hnew⟩

theorem addAll_addAll (c : Collection) (ids : List String) :
    ((c.addAll ids).value.addAll ids).value = (c.addAll ids).value := by
  obtain ⟨new, hall, hnew⟩ := exists_addAll_eq (c.addAll ids).value ids
  have hnone : new = [] := by
    refine List.eq_nil_iff_forall_not_mem.mpr fun id hid => hnew id hid ?_
    have hheld : id ∈ ((c.addAll ids).value.addAll ids).value.held := by
      rw [hall]
      exact List.mem_append_right _ hid
    rw [mem_held_addAll, accepts_congr (addAll_catalogue ids)] at hheld
    exact hheld.elim (fun h => h) fun h => mem_held_addAll.mpr (.inr h)
  rw [hall, hnone, List.append_nil]

theorem removeAll_eq (c : Collection) (ids : List String) :
    c.removeAll ids = { c with held := c.held.filter (· ∉ ids) } := by
  induction ids generalizing c with
  | nil => simp [removeAll]
  | cons id ids ih =>
    have hrest : c.removeAll (id :: ids) = (c.remove id).removeAll ids := rfl
    rw [hrest, ih, remove, List.filter_filter]
    congr 1
    apply List.filter_congr
    intro other _
    simp [bne, beq_eq_decide, Bool.and_comm]

/-- Adding and removing ids again changes nothing, even if some are both added and removed: those come back at the end
and go again. -/
theorem addAll_removeAll_again (c : Collection) (added removed : List String) :
    let changed := (c.addAll added).value.removeAll removed
    (changed.addAll added).value.removeAll removed = changed := by
  intro changed
  obtain ⟨new, hall, hnew⟩ := exists_addAll_eq changed added
  have hkept : changed.held.filter (· ∉ removed) = changed.held := by
    refine List.filter_eq_self.mpr fun id hid => ?_
    simpa using (mem_held_removeAll.mp hid).2
  have hgone : new.filter (· ∉ removed) = [] := by
    refine List.filter_eq_nil_iff.mpr fun id hid => ?_
    have hheld : id ∈ (changed.addAll added).value.held := by
      rw [hall]
      exact List.mem_append_right _ hid
    have hadded : id ∈ (c.addAll added).value.held := by
      rcases mem_held_addAll.mp hheld with h | ⟨hid, haccept⟩
      · exact absurd h (hnew id hid)
      · refine mem_held_addAll.mpr (.inr ⟨hid, ?_⟩)
        rwa [accepts_congr ((removeAll_catalogue removed).trans (addAll_catalogue added))] at haccept
    have hremoved := mt mem_held_removeAll.mpr (hnew id hid)
    simpa [hadded] using hremoved
  rw [hall, removeAll_eq, List.filter_append, hkept, hgone, List.append_nil]

end Collection

namespace Flags

theorem ofValues_overlay (values new : FlagValues) :
    ofValues (Assoc.overlay values new) = Assoc.overlay (ofValues values) (ofValues new) := by
  induction new generalizing values with
  | nil => rfl
  | cons entry rest ih =>
    rw [Assoc.overlay_cons, ih, ofValues_insert]
    rfl

theorem get?_setAll (flags : Flags) (values : FlagValues) (flag : String) :
    Assoc.get? (flags.setAll values) flag =
      ((Assoc.get? (Assoc.ofPairs values) flag).map FlagValue.toJson).or (Assoc.get? flags flag) := by
  have hpairs : Assoc.ofPairs (ofValues values) = ofValues (Assoc.ofPairs values) :=
    (ofValues_overlay [] values).symm
  rw [setAll, Assoc.get?_overlay, hpairs, get?_ofValues]

theorem keys_setAll (flags : Flags) (values : FlagValues) :
    Assoc.keys (flags.setAll values) =
      Assoc.keys flags ++ ((Assoc.keys values).filter (· ∉ Assoc.keys flags)).eraseDups := by
  have hkeys : Assoc.keys (ofValues values) = Assoc.keys values := List.map_map
  rw [setAll, Assoc.keys_overlay, hkeys]

end Flags

namespace World

/-- What becomes of a world when a node is carried out: the items held before and those that are added and accepted,
less those that are removed; the notes unlocked before and those that are added and accepted; the flags with the values
that the node sets on top of them, the new ones behind the others; and nothing else. Carrying out the node again leaves
the world as it is. -/
theorem apply_effects (w : World) (n : Node) :
    let applied := (w.apply n).value
    (∀ id, applied.items.contains id = true ↔
      (w.items.contains id = true ∨ id ∈ n.itemsAdded ∧ w.items.accepts id = true) ∧ id ∉ n.itemsRemoved) ∧
    (∀ id, applied.notes.contains id = true ↔
      w.notes.contains id = true ∨ id ∈ n.notesAdded ∧ w.notes.accepts id = true) ∧
    (∀ flag, Assoc.get? applied.flags flag =
      ((Assoc.get? (Assoc.ofPairs n.effects) flag).map FlagValue.toJson).or (Assoc.get? w.flags flag)) ∧
    Assoc.keys applied.flags =
      Assoc.keys w.flags ++ ((Assoc.keys n.effects).filter (· ∉ Assoc.keys w.flags)).eraseDups ∧
    (applied.items.blank = w.items.blank ∧ applied.notes.blank = w.notes.blank ∧ applied.defaults = w.defaults) ∧
    (applied.apply n).value = applied := by
  intro applied
  refine ⟨fun id => ?items, fun id => ?notes, Flags.get?_setAll w.flags n.effects,
    Flags.keys_setAll w.flags n.effects, ⟨?itemsBlank, ?notesBlank, rfl⟩, ?again⟩
  case items =>
    simp only [Collection.contains, List.contains_iff_mem]
    exact Collection.mem_held_removeAll.trans (and_congr_left' Collection.mem_held_addAll)
  case notes =>
    simp only [Collection.contains, List.contains_iff_mem]
    exact Collection.mem_held_addAll
  case itemsBlank =>
    exact (Collection.removeAll_blank n.itemsRemoved).trans (Collection.addAll_blank n.itemsAdded)
  case notesBlank => exact Collection.addAll_blank n.notesAdded
  case again =>
    have hitems := w.items.addAll_removeAll_again n.itemsAdded n.itemsRemoved
    have hnotes := w.notes.addAll_addAll n.notesAdded
    have hflags := Assoc.overlay_overlay w.flags (Flags.ofValues n.effects)
    rw [apply_value applied n]
    simp only [applied, apply_value, Flags.setAll, hitems, hnotes, hflags]

end World
end BranchingStory
