import BranchingStory.Proofs.Collections

/-!
# What a collection holds and lists

Three lists of ids make up a collection: the catalogue, whose repetitions do not matter, the held ids in the order in
which they came, and the listing that is made of the two. Whatever is done to a collection, what it holds is told by
the last deed that was about an id, as far as the catalogue accepts the id; and what it lists is what it holds, each id
once, in the order of the catalogue or sorted. Nothing of the order of the deeds is left in the listing, and restoring
it makes no difference.
-/

namespace BranchingStory

/-- What may be done to a collection; notes are not removed. -/
inductive CollectionDeed where
  | add (id : String)
  | remove (id : String)
  | restore (ids : List String)
deriving DecidableEq

namespace CollectionDeed

/-- What a deed says about an id: that it is in, that it is out, or nothing. A restoration is about every id. -/
def verdict (id : String) : CollectionDeed → Option Bool
  | add other => if other = id then some true else none
  | remove other => if other = id then some false else none
  | restore ids => some (ids.contains id)

/-- What the last of the deeds that are about the id says about it. -/
def lastVerdict (id : String) (deeds : List CollectionDeed) : Option Bool := deeds.reverse.findSome? (verdict id)

/-- The last of the deeds that are about the id puts it in. -/
def PutIn (id : String) (deeds : List CollectionDeed) : Prop := lastVerdict id deeds = some true

@[simp] theorem lastVerdict_nil (id : String) : lastVerdict id [] = none := rfl

theorem lastVerdict_cons (id : String) (deed : CollectionDeed) (deeds : List CollectionDeed) :
    lastVerdict id (deed :: deeds) = (lastVerdict id deeds).or (deed.verdict id) := by
  rw [lastVerdict, List.reverse_cons, List.findSome?_append, ← lastVerdict]
  cases h : deed.verdict id <;> simp [h]

end CollectionDeed

/-! ## Places in a list -/

section Places

variable {α : Type} [BEq α] [LawfulBEq α] {a b : α} {l : List α}

theorem idxOf_lt_of_filter {p : α → Bool} (ha : p a = true) (hb : p b = true)
    (h : (l.filter p).idxOf a < (l.filter p).idxOf b) : l.idxOf a < l.idxOf b := by
  induction l with
  | nil => exact h
  | cons c l ih =>
    by_cases hc : p c = true
    · rw [List.filter_cons_of_pos hc] at h
      simp only [List.idxOf_cons] at h ⊢
      cases hca : c == a with
      | true =>
        cases hcb : c == b with
        | true => simp [hca, hcb] at h
        | false => exact Nat.zero_lt_succ _
      | false =>
        cases hcb : c == b with
        | true => simp [hca, hcb] at h
        | false =>
          simp only [hca, hcb, cond_false] at h
          exact Nat.succ_lt_succ (ih (Nat.lt_of_succ_lt_succ h))
    · have hne : ∀ {d}, p d = true → (c == d) = false := by
        intro d hd
        rw [beq_eq_false_iff_ne]
        rintro rfl
        exact hc hd
      rw [List.filter_cons_of_neg hc] at h
      simp only [List.idxOf_cons, hne ha, hne hb, cond_false]
      exact Nat.succ_lt_succ (ih h)

theorem pairwise_idxOf_eraseDups (l : List α) :
    l.eraseDups.Pairwise fun a b => l.idxOf a < l.idxOf b := by
  induction hlength : l.length using Nat.strong_induction_on generalizing l with
  | _ length ih =>
    cases l with
    | nil => exact List.Pairwise.nil
    | cons c rest =>
      let kept := rest.filter fun other => !other == c
      have hkept : ∀ other ∈ kept.eraseDups, (c == other) = false ∧ (!other == c) = true := by
        intro other hother
        have hne := (List.mem_filter.mp (List.mem_eraseDups.mp hother)).2
        refine ⟨?_, hne⟩
        rw [beq_eq_false_iff_ne]
        exact Ne.symm (by simpa using hne)
      have hshorter : kept.length < length := by
        rw [← hlength, List.length_cons]
        exact Nat.lt_succ_of_le (List.length_filter_le _ _)
      rw [List.eraseDups_cons]
      refine List.pairwise_cons.mpr ⟨fun other hother => ?_, ?_⟩
      · simp [List.idxOf_cons, (hkept other hother).1]
      · refine (ih kept.length hshorter kept rfl).imp_of_mem fun {a b} ha hb hab => ?_
        simp only [List.idxOf_cons, (hkept a ha).1, (hkept b hb).1, cond_false]
        exact Nat.succ_lt_succ (idxOf_lt_of_filter (hkept a ha).2 (hkept b hb).2 hab)

theorem nodup_eraseDups (l : List α) : l.eraseDups.Nodup :=
  (pairwise_idxOf_eraseDups l).imp fun h heq => absurd (heq ▸ h) (Nat.lt_irrefl _)

end Places

theorem eraseDups_eq_nil {α : Type} [BEq α] {l : List α} : l.eraseDups = [] ↔ l = [] := by
  cases l <;> simp [List.eraseDups_cons]

namespace Collection

variable {c d : Collection}

/-! ## What is held -/

def carryOut (c : Collection) : CollectionDeed → Collection
  | .add id => (c.add id).value
  | .remove id => c.remove id
  | .restore ids => (c.restore ids).value

def run (c : Collection) (deeds : List CollectionDeed) : Collection := deeds.foldl carryOut c

@[simp] theorem carryOut_blank (deed : CollectionDeed) : (c.carryOut deed).blank = c.blank := by
  cases deed with
  | add id => exact add_blank id
  | remove id => rfl
  | restore ids => exact restore_blank ids

theorem Valid.carryOut (hc : c.Valid) (deed : CollectionDeed) : (c.carryOut deed).Valid := by
  cases deed with
  | add id => exact hc.add id
  | remove id => exact hc.remove id
  | restore ids => exact Valid.restore c ids

/-- One deed changes what it is about, and an id that it puts in has to be accepted. -/
theorem mem_held_carryOut (hc : c.Valid) (id : String) (deed : CollectionDeed) :
    id ∈ (c.carryOut deed).held ↔
      c.accepts id = true ∧ ((deed.verdict id).getD (c.held.contains id)) = true := by
  have haccepted : id ∈ c.held ↔ c.accepts id = true ∧ id ∈ c.held :=
    ⟨fun h => ⟨hc.accepted id h, h⟩, And.right⟩
  cases deed with
  | add other =>
    rw [Collection.carryOut, mem_held_add, CollectionDeed.verdict]
    by_cases hother : other = id
    · subst hother
      simpa using hc.accepted other
    · simpa [hother, Ne.symm hother] using haccepted
  | remove other =>
    rw [Collection.carryOut, mem_held_remove, CollectionDeed.verdict]
    by_cases hother : other = id
    · simp [hother]
    · simpa [hother, Ne.symm hother] using haccepted
  | restore ids =>
    rw [Collection.carryOut, mem_held_restore, CollectionDeed.verdict]
    simp [and_comm]

@[simp] theorem run_blank (deeds : List CollectionDeed) : (c.run deeds).blank = c.blank := by
  induction deeds generalizing c with
  | nil => rfl
  | cons deed deeds ih => exact (ih (c := c.carryOut deed)).trans (carryOut_blank deed)

theorem Valid.run (hc : c.Valid) (deeds : List CollectionDeed) : (c.run deeds).Valid := by
  induction deeds generalizing c with
  | nil => exact hc
  | cons deed deeds ih => exact ih (hc.carryOut deed)

/-- After any deeds the last verdict on an id counts; without one it is as it was. -/
theorem mem_held_run (hc : c.Valid) (id : String) (deeds : List CollectionDeed) :
    id ∈ (c.run deeds).held ↔
      c.accepts id = true ∧ (CollectionDeed.lastVerdict id deeds).getD (c.held.contains id) = true := by
  -- The deeds are carried out from the front, but the verdict is looked for from the end: the first deed counts only if
  -- no later one is about the id, and then it is what the later ones start from.
  induction deeds generalizing c with
  | nil => simpa [run] using hc.accepted id
  | cons deed deeds ih =>
    have haccepts : (c.carryOut deed).accepts id = c.accepts id :=
      accepts_congr (catalogue_eq_of_blank (carryOut_blank deed)) id
    rw [run, List.foldl_cons, ← run, ih (hc.carryOut deed), haccepts, CollectionDeed.lastVerdict_cons]
    cases CollectionDeed.lastVerdict id deeds with
    | some verdict => rfl
    | none =>
      rw [Option.none_or, Option.getD_none, List.contains_iff_mem, mem_held_carryOut hc]
      simp

/-! ## What is listed -/

theorem nodup_ids (hc : c.Valid) (h : c.catalogue.Nodup) : c.ids.Nodup := by
  unfold ids
  split
  · exact (List.mergeSort_perm c.held fun a b => decide (a ≤ b)).nodup_iff.mpr hc.nodup
  · exact h.filter _

theorem pairwise_ids_of_nil (hc : c.Valid) (h : c.catalogue = []) : c.ids.Pairwise (· < ·) := by
  have hnodup := nodup_ids hc (h ▸ List.nodup_nil)
  rw [ids, if_pos (List.isEmpty_iff.mpr h)] at hnodup ⊢
  exact ((pairwise_mergeSort_le c.held).and hnodup).imp fun h => Std.lt_of_le_of_ne h.1 h.2

theorem ids_sublist (h : c.catalogue ≠ []) : c.ids.Sublist c.catalogue := by
  rw [ids, if_neg (by simpa using h)]
  exact List.filter_sublist

theorem ids_eq_iff (hc : c.Valid) (hd : d.Valid) (hcatalogue : c.catalogue = d.catalogue) :
    c.ids = d.ids ↔ ∀ id, id ∈ c.held ↔ id ∈ d.held := by
  refine ⟨fun h id => ?_, fun h => ids_eq_of_same hc hd ⟨hcatalogue, h⟩⟩
  rw [← mem_ids hc, ← mem_ids hd, h]

theorem addAll_notices {ids : List String} (h : ∀ id ∈ ids, c.accepts id = true) :
    (c.addAll ids).notices = [] := by
  induction ids generalizing c with
  | nil => rfl
  | cons id ids ih =>
    have hadd : (c.add id).notices = [] := by
      rw [add, if_pos (h id List.mem_cons_self)]
    rw [addAll, Told.notices_bind, hadd, List.nil_append]
    refine ih fun other hother => ?_
    rw [accepts_congr (add_catalogue id)]
    exact h other (List.mem_cons_of_mem id hother)

theorem restore_ids_notices (hc : c.Valid) : (c.restore c.ids).notices = [] :=
  addAll_notices (c := c.blank) fun id hid => hc.accepted id ((mem_ids hc).mp hid)

/-- Nothing held, over a catalogue without its repetitions. -/
def unfilled (kind : CollectionKind) (catalogue : List String) : Collection :=
  { kind, catalogue := catalogue.eraseDups }

theorem run_make (kind : CollectionKind) (catalogue starting : List String) (deeds : List CollectionDeed) :
    (make kind catalogue starting).value.run deeds = (unfilled kind catalogue).run (.restore starting :: deeds) :=
  rfl

theorem run_make_catalogue (kind : CollectionKind) (catalogue starting : List String)
    (deeds : List CollectionDeed) :
    ((make kind catalogue starting).value.run deeds).catalogue = catalogue.eraseDups := by
  rw [run_make]
  exact catalogue_eq_of_blank (run_blank (c := unfilled kind catalogue) _)

theorem accepts_unfilled_iff {kind : CollectionKind} {catalogue : List String} {id : String} :
    (unfilled kind catalogue).accepts id = true ↔ catalogue = [] ∨ id ∈ catalogue := by
  rw [accepts, unfilled, Bool.or_eq_true, List.contains_iff_mem, List.mem_eraseDups, List.isEmpty_iff,
    eraseDups_eq_nil]

theorem contains_run_make {kind : CollectionKind} {catalogue starting : List String}
    {deeds : List CollectionDeed} {id : String} :
    ((make kind catalogue starting).value.run deeds).contains id = true ↔
      (catalogue = [] ∨ id ∈ catalogue) ∧ CollectionDeed.PutIn id (.restore starting :: deeds) := by
  have hvalid : (unfilled kind catalogue).Valid := Valid.blank (unfilled kind catalogue)
  rw [contains, List.contains_iff_mem, run_make, mem_held_run hvalid, accepts_unfilled_iff,
    CollectionDeed.PutIn]
  refine and_congr_right fun _ => ?_
  cases CollectionDeed.lastVerdict id (.restore starting :: deeds) <;> simp [unfilled]

/-- Whatever is done to a collection over a catalogue, an id is held if and only if it is accepted and the last deed
that was about it put it in, where the collection starts with a restoration. It lists the held ids, each once, sorted if
the catalogue is empty and else in the order in which they first occur in the catalogue. What it lists is settled by
what it holds, and restoring that changes nothing and is accepted without a notice. -/
theorem run_held_and_listed (kind : CollectionKind) (catalogue starting : List String)
    (deeds : List CollectionDeed) :
    let c := (make kind catalogue starting).value.run deeds
    (∀ id, c.contains id = true ↔
      (catalogue = [] ∨ id ∈ catalogue) ∧ CollectionDeed.PutIn id (.restore starting :: deeds)) ∧
    c.ids.Nodup ∧ (∀ id, id ∈ c.ids ↔ c.contains id = true) ∧
    (if catalogue = [] then c.ids.Pairwise (· < ·)
      else c.ids.Pairwise fun a b => catalogue.idxOf a < catalogue.idxOf b) ∧
    (∀ otherKind others otherDeeds,
      let d := (make otherKind catalogue others).value.run otherDeeds
      c.ids = d.ids ↔ ∀ id, c.contains id = d.contains id) ∧
    (c.restore c.ids).value.Same c ∧ (c.restore c.ids).value.ids = c.ids ∧ (c.restore c.ids).notices = [] := by
  intro c
  have hc : c.Valid := (Valid.make kind catalogue starting).run deeds
  have hcatalogue : c.catalogue = catalogue.eraseDups := run_make_catalogue kind catalogue starting deeds
  have hsame : (c.restore c.ids).value.Same c := Same.restore_ids hc rfl
  refine ⟨fun id => contains_run_make, ?nodup, ?listed, ?order, ?settled, hsame, ?again,
    restore_ids_notices hc⟩
  case nodup => exact nodup_ids hc (hcatalogue ▸ nodup_eraseDups catalogue)
  case listed =>
    intro id
    rw [mem_ids hc, contains, List.contains_iff_mem]
  case order =>
    split
    · rename_i hempty
      subst hempty
      exact pairwise_ids_of_nil hc hcatalogue
    · rename_i hne
      have hlisted := ids_sublist (c := c) (by rwa [hcatalogue, Ne, eraseDups_eq_nil])
      rw [hcatalogue] at hlisted
      exact (pairwise_idxOf_eraseDups catalogue).sublist hlisted
  case settled =>
    intro otherKind others otherDeeds d
    have hd : d.Valid := (Valid.make otherKind catalogue others).run otherDeeds
    have hother : d.catalogue = catalogue.eraseDups := run_make_catalogue otherKind catalogue others otherDeeds
    rw [ids_eq_iff hc hd (hcatalogue.trans hother.symm)]
    refine forall_congr' fun id => ?_
    rw [contains, contains, Bool.eq_iff_iff, List.contains_iff_mem, List.contains_iff_mem]
  case again => exact ids_eq_of_same (Valid.restore c c.ids) hc hsame

example : ((make .items ["rope", "lamp", "rope"] ["lamp"]).value.run
    [.add "rope", .remove "lamp", .add "key", .add "lamp"]).ids = ["rope", "lamp"] := by
  decide

end Collection
end BranchingStory
