import BranchingStory.Play.Collection
import Mathlib.Data.List.Sort

/-!
# Collections as bounded sets

A collection keeps its held ids in the order in which they came, but what it lists depends only on
which ids are held. Adding and removing are therefore described by membership, and two collections
over one catalogue that hold the same ids list the same ids.
-/

namespace BranchingStory
namespace Collection

variable {c d : Collection}

/-- The held ids do not repeat, and the catalogue accepts them. -/
structure Valid (c : Collection) : Prop where
  nodup : c.held.Nodup
  accepted : ∀ id ∈ c.held, c.accepts id = true

/-- The same catalogue and the same held ids, in whatever order they came. -/
structure Same (c d : Collection) : Prop where
  catalogue : c.catalogue = d.catalogue
  held : ∀ id, id ∈ c.held ↔ id ∈ d.held

/-- A collection with nothing held, which is what it starts over from. -/
def blank (c : Collection) : Collection := { c with held := [] }

@[simp] theorem blank_catalogue (c : Collection) : c.blank.catalogue = c.catalogue := rfl

theorem catalogue_eq_of_blank (h : c.blank = d.blank) : c.catalogue = d.catalogue := by
  rw [← blank_catalogue c, h, blank_catalogue]

theorem accepts_congr (h : c.catalogue = d.catalogue) (id : String) : c.accepts id = d.accepts id := by
  rw [accepts, accepts, h]

theorem Same.accepts (h : c.Same d) (id : String) : c.accepts id = d.accepts id := accepts_congr h.catalogue id

theorem Valid.blank (c : Collection) : c.blank.Valid := ⟨List.nodup_nil, fun _ h => absurd h List.not_mem_nil⟩

/-! ## What is held -/

@[simp] theorem add_blank (id : String) : (c.add id).value.blank = c.blank := by
  unfold add
  split <;> rfl

theorem add_catalogue (id : String) : (c.add id).value.catalogue = c.catalogue :=
  catalogue_eq_of_blank (add_blank id)

theorem mem_held_add {id other : String} :
    id ∈ (c.add other).value.held ↔ id ∈ c.held ∨ id = other ∧ c.accepts other = true := by
  unfold add
  by_cases haccept : c.accepts other = true
  · by_cases hheld : other ∈ c.held
    · have hkeep : id = other → id ∈ c.held := fun h => h ▸ hheld
      simpa [haccept, hheld] using hkeep
    · simp [haccept, hheld]
  · simp [haccept]

theorem Valid.add (hc : c.Valid) (id : String) : (c.add id).value.Valid := by
  unfold Collection.add
  by_cases haccept : c.accepts id = true
  · rw [if_pos haccept]
    by_cases hheld : c.held.contains id = true
    · rw [if_pos hheld]
      exact hc
    · rw [if_neg hheld]
      have hnotMem : id ∉ c.held := by simpa using hheld
      refine ⟨?_, fun other hother => ?_⟩
      · exact List.nodup_append.mpr ⟨hc.nodup, List.nodup_singleton id,
          fun a ha b hb hab => hnotMem (List.mem_singleton.mp hb ▸ hab ▸ ha)⟩
      · rcases List.mem_append.mp hother with hother | hother
        · exact hc.accepted other hother
        · exact List.mem_singleton.mp hother ▸ haccept
  · rw [if_neg haccept]
    exact hc

@[simp] theorem addAll_blank (ids : List String) : (c.addAll ids).value.blank = c.blank := by
  induction ids generalizing c with
  | nil => rfl
  | cons id ids ih => exact (ih (c := (c.add id).value)).trans (add_blank id)

@[simp] theorem addAll_catalogue (ids : List String) : (c.addAll ids).value.catalogue = c.catalogue :=
  catalogue_eq_of_blank (addAll_blank ids)

theorem mem_held_addAll {id : String} {ids : List String} :
    id ∈ (c.addAll ids).value.held ↔ id ∈ c.held ∨ id ∈ ids ∧ c.accepts id = true := by
  induction ids generalizing c with
  | nil => simp [addAll]
  | cons other ids ih =>
    have haccepts : (c.add other).value.accepts id = c.accepts id := accepts_congr (add_catalogue other) id
    rw [addAll, Told.value_bind, ih, mem_held_add, haccepts, List.mem_cons]
    constructor
    · rintro ((h | ⟨rfl, h⟩) | ⟨hmem, h⟩)
      · exact .inl h
      · exact .inr ⟨.inl rfl, h⟩
      · exact .inr ⟨.inr hmem, h⟩
    · rintro (h | ⟨rfl | hmem, h⟩)
      · exact .inl (.inl h)
      · exact .inl (.inr ⟨rfl, h⟩)
      · exact .inr ⟨hmem, h⟩

theorem Valid.addAll (hc : c.Valid) (ids : List String) : (c.addAll ids).value.Valid := by
  induction ids generalizing c with
  | nil => exact hc
  | cons id ids ih => exact ih (hc.add id)

@[simp] theorem removeAll_blank (ids : List String) : (c.removeAll ids).blank = c.blank := by
  induction ids generalizing c with
  | nil => rfl
  | cons id ids ih => exact ih (c := c.remove id)

@[simp] theorem removeAll_catalogue (ids : List String) : (c.removeAll ids).catalogue = c.catalogue :=
  catalogue_eq_of_blank (removeAll_blank ids)

theorem mem_held_remove {id other : String} : id ∈ (c.remove other).held ↔ id ∈ c.held ∧ id ≠ other := by
  simp [remove]

theorem mem_held_removeAll {id : String} {ids : List String} :
    id ∈ (c.removeAll ids).held ↔ id ∈ c.held ∧ id ∉ ids := by
  induction ids generalizing c with
  | nil => simp [removeAll]
  | cons other ids ih =>
    rw [removeAll, List.foldl_cons, ← removeAll, ih, mem_held_remove, List.mem_cons, not_or, and_assoc]

theorem Valid.remove (hc : c.Valid) (id : String) : (c.remove id).Valid :=
  ⟨hc.nodup.filter _, fun other hother => hc.accepted other (mem_held_remove.mp hother).1⟩

theorem Valid.removeAll (hc : c.Valid) (ids : List String) : (c.removeAll ids).Valid := by
  induction ids generalizing c with
  | nil => exact hc
  | cons id ids ih => exact ih (hc.remove id)

/-! ## Restoring and constructing -/

@[simp] theorem restore_blank (ids : List String) : (c.restore ids).value.blank = c.blank :=
  addAll_blank (c := c.blank) ids

@[simp] theorem restore_catalogue (ids : List String) : (c.restore ids).value.catalogue = c.catalogue :=
  catalogue_eq_of_blank (restore_blank ids)

theorem restore_eq_of_blank (h : c.blank = d.blank) (ids : List String) : c.restore ids = d.restore ids :=
  congrArg (addAll · ids) h

/-- Whatever was held before, afterwards it is the given ids as far as they are accepted. -/
theorem mem_held_restore {id : String} {ids : List String} :
    id ∈ (c.restore ids).value.held ↔ id ∈ ids ∧ c.accepts id = true := by
  rw [restore, mem_held_addAll]
  exact ⟨fun h => h.elim (fun h => absurd h List.not_mem_nil) fun h => h, Or.inr⟩

theorem Valid.restore (c : Collection) (ids : List String) : (c.restore ids).value.Valid :=
  (Valid.blank c).addAll ids

theorem Valid.make (kind : CollectionKind) (catalogue held : List String) :
    (Collection.make kind catalogue held).value.Valid :=
  (Valid.blank { kind, catalogue := catalogue.eraseDups }).addAll held

/-! ## What is listed -/

theorem mem_ids (hc : c.Valid) {id : String} : id ∈ c.ids ↔ id ∈ c.held := by
  unfold ids
  by_cases hempty : c.catalogue.isEmpty = true
  · rw [if_pos hempty, List.mem_mergeSort]
  · rw [if_neg hempty, List.mem_filter, List.contains_iff_mem]
    refine ⟨And.right, fun hheld => ⟨?_, hheld⟩⟩
    simpa [accepts, hempty] using hc.accepted id hheld

theorem mem_ids_restore {c : Collection} {id : String} {ids : List String} :
    id ∈ (c.restore ids).value.ids ↔ id ∈ ids ∧ c.accepts id = true :=
  (mem_ids (Valid.restore c ids)).trans mem_held_restore

theorem pairwise_mergeSort_le (l : List String) :
    (l.mergeSort fun a b => decide (a ≤ b)).Pairwise (· ≤ ·) := by
  have hsorted := @List.pairwise_mergeSort _ (fun a b : String => decide (a ≤ b))
    (fun a b c hab hbc => by simpa using String.le_trans (by simpa using hab) (by simpa using hbc))
    (fun a b => by simpa using String.le_total a b) l
  simpa using hsorted

theorem ids_eq_of_same (hc : c.Valid) (hd : d.Valid) (h : c.Same d) : c.ids = d.ids := by
  unfold ids
  rw [← h.catalogue]
  by_cases hempty : c.catalogue.isEmpty = true
  · rw [if_pos hempty, if_pos hempty]
    have hperm : c.held.Perm d.held := (List.perm_ext_iff_of_nodup hc.nodup hd.nodup).mpr h.held
    have hlisted := (List.mergeSort_perm c.held fun a b => decide (a ≤ b)).trans
      (hperm.trans (List.mergeSort_perm d.held fun a b => decide (a ≤ b)).symm)
    exact List.Perm.eq_of_pairwise (fun a b _ _ => String.le_antisymm) (pairwise_mergeSort_le c.held)
      (pairwise_mergeSort_le d.held) hlisted
  · rw [if_neg hempty, if_neg hempty]
    apply List.filter_congr
    intro id _
    rw [Bool.eq_iff_iff, List.contains_iff_mem, List.contains_iff_mem]
    exact h.held id

/-! ## Collections over one catalogue -/

theorem Same.addAll (h : c.Same d) (ids : List String) : (c.addAll ids).value.Same (d.addAll ids).value := by
  refine ⟨?_, fun id => ?_⟩
  · rw [addAll_catalogue, addAll_catalogue, h.catalogue]
  · rw [mem_held_addAll, mem_held_addAll, h.held, h.accepts]

theorem Same.removeAll (h : c.Same d) (ids : List String) : (c.removeAll ids).Same (d.removeAll ids) := by
  refine ⟨?_, fun id => ?_⟩
  · rw [removeAll_catalogue, removeAll_catalogue, h.catalogue]
  · rw [mem_held_removeAll, mem_held_removeAll, h.held]

theorem Same.restore_ids (hc : c.Valid) (hcatalogue : d.catalogue = c.catalogue) :
    (d.restore c.ids).value.Same c := by
  refine ⟨(restore_catalogue c.ids).trans hcatalogue, fun id => ?_⟩
  have haccepts : d.accepts id = c.accepts id := accepts_congr hcatalogue id
  rw [mem_held_restore, mem_ids hc, haccepts]
  exact ⟨And.left, fun hheld => ⟨hheld, hc.accepted id hheld⟩⟩

end Collection
end BranchingStory
