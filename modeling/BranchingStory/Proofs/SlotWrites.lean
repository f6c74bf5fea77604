import BranchingStory.Proofs.DiskChanges
import BranchingStory.Proofs.Utf8
import Mathlib.Logic.Function.Basic

/-!
# Writes to a shared slot

Any number of stores may write to one slot, each with its own memory of what it wrote last, and the slot may be
removed in between. A write that takes place is on the disk afterwards, and is read back. A write that is skipped
leaves the disk alone, because the store has written the same save before. So what is then in the slot is what
whoever changed it last has left there: the save is given back exactly if that was the same save.
-/

namespace BranchingStory

/-! ## Sorting and erasing -/

namespace Assoc

variable {α : Type}

theorem insertSorted_of_le {entry : String × α} {m : Assoc α} (h : ∀ other ∈ m, entry.1 ≤ other.1) :
    insertSorted entry m = entry :: m := by
  cases m with
  | nil => rfl
  | cons first rest => exact if_pos (h first List.mem_cons_self)

theorem mem_insertSorted {entry other : String × α} {m : Assoc α} :
    other ∈ insertSorted entry m ↔ other = entry ∨ other ∈ m := by
  induction m with
  | nil => simp [insertSorted]
  | cons first rest ih =>
    rw [insertSorted]
    split
    · simp
    · rw [List.mem_cons, ih, List.mem_cons]
      exact or_left_comm

theorem pairwise_insertSorted {entry : String × α} {m : Assoc α} (h : m.Pairwise fun a b => a.1 ≤ b.1) :
    (insertSorted entry m).Pairwise fun a b => a.1 ≤ b.1 := by
  induction m with
  | nil => exact List.pairwise_singleton _ _
  | cons first rest ih =>
    obtain ⟨hfirst, hrest⟩ := List.pairwise_cons.mp h
    rw [insertSorted]
    split
    · rename_i hle
      refine List.pairwise_cons.mpr ⟨?_, h⟩
      intro other hother
      rcases List.mem_cons.mp hother with rfl | hother
      · exact hle
      · exact String.le_trans hle (hfirst other hother)
    · rename_i hnot
      refine List.pairwise_cons.mpr ⟨?_, ih hrest⟩
      intro other hother
      rcases mem_insertSorted.mp hother with rfl | hother
      · exact (String.le_total _ _).resolve_left hnot
      · exact hfirst other hother

theorem pairwise_sorted (m : Assoc α) : m.sorted.Pairwise fun a b => a.1 ≤ b.1 := by
  induction m with
  | nil => exact List.Pairwise.nil
  | cons entry m ih => exact pairwise_insertSorted ih

theorem erase_insertSorted {entry : String × α} {m : Assoc α} {key : String}
    (h : m.Pairwise fun a b => a.1 ≤ b.1) :
    erase (insertSorted entry m) key =
      if entry.1 = key then erase m key else insertSorted entry (erase m key) := by
  induction m with
  | nil => by_cases hkey : entry.1 = key <;> simp [insertSorted, erase, hkey]
  | cons first rest ih =>
    obtain ⟨hfirst, hrest⟩ := List.pairwise_cons.mp h
    rw [insertSorted]
    split
    · rename_i hle
      by_cases hkey : entry.1 = key
      · simp [erase, hkey]
      · -- The entry stays in front of whatever is left.
        have hfront : ∀ other ∈ erase (first :: rest) key, entry.1 ≤ other.1 := by
          intro other hother
          rcases List.mem_cons.mp (List.mem_filter.mp hother).1 with rfl | hother
          · exact hle
          · exact String.le_trans hle (hfirst other hother)
        rw [if_neg hkey, insertSorted_of_le hfront]
        simp [erase, hkey]
    · rename_i hnot
      have ih := ih hrest
      by_cases hgone : first.1 = key
      · simpa [erase, hgone] using ih
      · have hkept : ∀ m : Assoc α, erase (first :: m) key = first :: erase m key := by
          intro m
          simp [erase, hgone]
        rw [hkept, hkept, ih]
        by_cases hkey : entry.1 = key
        · rw [if_pos hkey, if_pos hkey]
        · rw [if_neg hkey, if_neg hkey, insertSorted, if_neg hnot]

/-- It makes no difference whether a name is erased before or after sorting. -/
theorem erase_sorted (m : Assoc α) (key : String) : erase m.sorted key = (erase m key).sorted := by
  induction m with
  | nil => rfl
  | cons entry m ih =>
    rw [sorted, List.foldr_cons, ← sorted, erase_insertSorted (pairwise_sorted m), ih]
    by_cases hkey : entry.1 = key
    · simp [erase, hkey]
    · simp [erase, hkey, sorted]

end Assoc

namespace Json

theorem sortedInside_erase (members : Assoc Json) (key : String) :
    sortedInside (Assoc.erase members key) = Assoc.erase (sortedInside members) key := by
  induction members with
  | nil => rfl
  | cons entry rest ih =>
    obtain ⟨name, value⟩ := entry
    by_cases h : name = key
    · simpa [Assoc.erase, sortedInside, h] using ih
    · simpa [Assoc.erase, sortedInside, h] using ih

theorem sortedMembers_erase {a b : Assoc Json}
    (h : (Json.object a).sortedMembers = (Json.object b).sortedMembers) (key : String) :
    (Json.object (Assoc.erase a key)).sortedMembers = (Json.object (Assoc.erase b key)).sortedMembers := by
  rw [sortedMembers, sortedMembers, Json.object.injEq] at h
  rw [sortedMembers, sortedMembers, sortedInside_erase, sortedInside_erase, ← Assoc.erase_sorted, h,
    Assoc.erase_sorted]

end Json

/-! ## One write -/

namespace Slot

variable {s : Slot} {d : Disk} {a b save kept : Assoc Json}

/-- Two saves that differ in nothing but their times. -/
def SameButTime (a b : Assoc Json) : Prop :=
  (Json.object (Assoc.erase a timeKey)).sortedMembers = (Json.object (Assoc.erase b timeKey)).sortedMembers

/-- The texts that are made of a save read back as what they were made of. -/
structure Rereads (nesting : Nat) (save : Assoc Json) : Prop where
  page : Json.ofBytes nesting (Utf8.encode (Json.object save).page) = .ok (Json.object save).sortedMembers
  line : Json.read nesting (identityText save).toList =
    .ok (Json.object (Assoc.erase save timeKey)).sortedMembers

/-- Saves with the same text are the same save. -/
theorem identityText_eq_iff {nesting : Nat} (ha : Rereads nesting a) (hb : Rereads nesting b) :
    identityText a = identityText b ↔ SameButTime a b := by
  constructor
  · intro h
    have hline := ha.line
    rw [h, hb.line] at hline
    exact (Except.ok.inj hline).symm
  · intro h
    rw [identityText, identityText, Json.line, Json.line, h]

def bytesOf (save : Assoc Json) : List UInt8 := Utf8.encode (Json.object save).page

/-- The slot is there, and what is read from it is the save, but perhaps for the time. -/
def GivesBack (s : Slot) (d : Disk) (save : Assoc Json) : Prop :=
  s.holds d = .ok true ∧
    ∃ kept, SameButTime kept save ∧ s.read d = .ok (some (Json.object kept).sortedMembers)

/-- All that can become of a write: it is skipped, it fails after some directories were made, or the file is there. -/
inductive WriteEnds (s : Slot) (save : Assoc Json) (d : Disk) : SlotWrite → Prop where
  | skipped {notices : List Notice} (h : s.lastWritten = some (identityText save)) :
      WriteEnds s save d ⟨s, d, notices, .ok false⟩
  | failed {made : Disk} {fault : DiskFault} (h : s.lastWritten ≠ some (identityText save))
      (hmade : d.Grows made) (hnesting : made.nesting = d.nesting) : WriteEnds s save d ⟨s, made, [], .error fault⟩
  | written {made : Disk} {l : Location} {notices : List Notice} (h : s.lastWritten ≠ some (identityText save))
      (hmade : d.Grows made) (hnesting : made.nesting = d.nesting) (hresolve : made.resolve s.path = .ok l)
      (hfile : made.entry? l ≠ some .directory) :
      WriteEnds s save d ⟨{ s with lastWritten := some (identityText save) },
        made.put l (.file (bytesOf save)), notices, .ok true⟩

theorem write_ends (s : Slot) (save : Assoc Json) (d : Disk) : WriteEnds s save d (s.write save d) := by
  unfold write
  dsimp only
  split
  · rename_i hsame
    exact .skipped hsame
  · rename_i hnew
    have hmade := d.grows_makeDirs s.directory
    have hnesting := d.makeDirs_nesting s.directory
    split
    · exact .failed hnew hmade hnesting
    · split
      · exact .failed hnew hmade hnesting
      · rename_i hwritten
        obtain ⟨l, hresolve, hfile, rfl⟩ := Disk.write_eq_ok.mp hwritten
        exact .written hnew hmade hnesting hresolve hfile

theorem write_eq_false (h : (s.write save d).result = .ok false) :
    (s.write save d).slot = s ∧ (s.write save d).disk = d := by
  have hends := s.write_ends save d
  generalize s.write save d = turn at h hends
  cases hends with
  | skipped _ => exact ⟨rfl, rfl⟩
  | failed => cases h
  | written => cases h

/-! ## What is read from a slot -/

theorem read_of_file {l : Location} {bytes : List UInt8} {document : Json} (hresolve : d.resolve s.path = .ok l)
    (hfile : d.entry? l = some (.file bytes)) (hdocument : Json.ofBytes d.nesting bytes = .ok document) :
    s.holds d = .ok true ∧ s.read d = .ok (some document) := by
  have hread : d.readDocument s.path = .ok document := by
    rw [Disk.readDocument_of_ok (Disk.read_eq_ok.mpr ⟨l, hresolve, hfile⟩), hdocument]
  constructor
  · simp [holds, Disk.contains, hresolve, hfile]
  · rw [read, hread]

theorem read_ne_some {l : Location} (hresolve : d.resolve s.path = .ok l)
    (hnone : ∀ bytes, d.entry? l ≠ some (.file bytes)) (document : Json) : s.read d ≠ .ok (some document) := by
  intro h
  cases hread : d.read s.path with
  | ok bytes =>
    obtain ⟨other, hother, hfile⟩ := Disk.read_eq_ok.mp hread
    obtain rfl := Except.ok.inj (hresolve.symm.trans hother)
    exact hnone bytes hfile
  | error fault =>
    rw [read, Disk.readDocument_of_error hread] at h
    dsimp only at h
    split at h <;> cases h

end Slot

/-! ## Many writes -/

/-- What was done to a slot. -/
inductive SlotChange (ι : Type) where
  | written (writer : ι) (save : Assoc Json)
  | removed

/-- What may be done to a slot: one of the stores writes, or somebody removes the file. -/
inductive SlotAction (ι : Type) where
  | write (i : ι) (save : Assoc Json)
  | remove

/-- Stores on one slot, the disk, and what was done to the slot so far, the latest first. -/
structure Desk (ι : Type) where
  path : Path
  stores : ι → Slot
  disk : Disk
  changes : List (SlotChange ι) := []

namespace SlotChange

variable {ι : Type}

def savedBy [DecidableEq ι] (i : ι) : SlotChange ι → Option (Assoc Json)
  | .written j save => if j = i then some save else none
  | .removed => none

/-- What stands at the slot's location after a change. -/
def Shows : SlotChange ι → Option Entry → Prop
  | .written _ save, entry => entry = some (.file (Slot.bytesOf save))
  | .removed, entry => ∀ bytes, entry ≠ some (.file bytes)

theorem shows_of_grows {d d' : Disk} {p : Path} {change : SlotChange ι} (h : d.Grows d')
    (hslot : ∃ l, d.resolve p = .ok l ∧ change.Shows (d.entry? l)) :
    ∃ l, d'.resolve p = .ok l ∧ change.Shows (d'.entry? l) := by
  obtain ⟨l, hresolve, hshows⟩ := hslot
  refine ⟨l, h.keepsDirectories.resolve hresolve, ?_⟩
  cases change with
  | written i save => exact h.file_iff.mpr hshows
  | removed => exact fun bytes hfile => hshows bytes (h.file_iff.mp hfile)

end SlotChange

namespace Desk

variable {ι : Type} [DecidableEq ι] {k : Desk ι}

/-- One action; a write that is skipped or fails and a removal that fails are no changes of the slot. -/
def step (k : Desk ι) : SlotAction ι → Desk ι
  | .write i save =>
    let turn := (k.stores i).write save k.disk
    { path := k.path
      stores := Function.update k.stores i turn.slot
      disk := turn.disk
      changes := if turn.result matches .ok true then .written i save :: k.changes else k.changes }
  | .remove =>
    match k.disk.remove k.path with
    | .ok disk => { k with disk, changes := .removed :: k.changes }
    | .error _ => k

def run (k : Desk ι) (actions : List (SlotAction ι)) : Desk ι := actions.foldl step k

/-- The last save that a store has written. -/
def lastBy (k : Desk ι) (i : ι) : Option (Assoc Json) := k.changes.findSome? (SlotChange.savedBy i)

/-- Stores that share a slot and have written nothing yet. -/
structure Fresh (k : Desk ι) : Prop where
  path : ∀ i, (k.stores i).path = k.path
  memory : ∀ i, (k.stores i).lastWritten = none
  changes : k.changes = []

/-- What holds at any time: each store remembers the last save that it has written, and the slot's location shows
the last change. -/
structure Kept (k : Desk ι) : Prop where
  path : ∀ i, (k.stores i).path = k.path
  memory : ∀ i, (k.stores i).lastWritten = (k.lastBy i).map Slot.identityText
  slot : ∀ change rest, k.changes = change :: rest →
    ∃ l, k.disk.resolve k.path = .ok l ∧ change.Shows (k.disk.entry? l)
  rereads : ∀ i save, .written i save ∈ k.changes → Slot.Rereads k.disk.nesting save

theorem Fresh.kept (h : k.Fresh) : k.Kept := by
  refine ⟨h.path, ?_, ?_, ?_⟩
  · intro i
    rw [h.memory, lastBy, h.changes]
    rfl
  · intro change rest hchanges
    rw [h.changes] at hchanges
    cases hchanges
  · intro i save hsave
    rw [h.changes] at hsave
    cases hsave

theorem step_nesting (k : Desk ι) (action : SlotAction ι) : (k.step action).disk.nesting = k.disk.nesting := by
  cases action with
  | write i save =>
    have hends := (k.stores i).write_ends save k.disk
    unfold step
    dsimp only
    generalize (k.stores i).write save k.disk = turn at hends
    cases hends with
    | skipped => rfl
    | failed _ _ hnesting => exact hnesting
    | written _ _ hnesting _ _ => exact hnesting
  | remove =>
    unfold step
    dsimp only
    split
    · rename_i disk hremove
      obtain ⟨l, _, _, rfl⟩ := Disk.remove_eq_ok.mp hremove
      rfl
    · rfl

theorem run_nesting (k : Desk ι) (actions : List (SlotAction ι)) :
    (k.run actions).disk.nesting = k.disk.nesting := by
  induction actions generalizing k with
  | nil => rfl
  | cons action actions ih => exact (ih _).trans (k.step_nesting action)

theorem Kept.write (h : k.Kept) (i : ι) {save : Assoc Json} (hsave : Slot.Rereads k.disk.nesting save) :
    (k.step (.write i save)).Kept := by
  have hends := (k.stores i).write_ends save k.disk
  unfold step
  dsimp only
  generalize (k.stores i).write save k.disk = turn at hends
  cases hends with
  | skipped hsame =>
    rw [Function.update_eq_self]
    exact h
  | failed hnew hmade hnesting =>
    rw [Function.update_eq_self]
    refine ⟨h.path, h.memory, ?_, hnesting ▸ h.rereads⟩
    intro change rest hchanges
    exact SlotChange.shows_of_grows hmade (h.slot change rest hchanges)
  | @written made l notices hnew hmade hnesting hresolve hfile =>
    refine ⟨?path, ?memory, ?slot, ?rereads⟩
    case path =>
      intro j
      by_cases hj : j = i
      · subst hj
        simpa [Slot.path] using h.path j
      · simpa [Function.update_of_ne hj] using h.path j
    case memory =>
      intro j
      by_cases hj : j = i
      · subst hj
        simp [lastBy, SlotChange.savedBy]
      · simpa [Function.update_of_ne hj, lastBy, SlotChange.savedBy, Ne.symm hj] using h.memory j
    case slot =>
      intro change rest hchanges
      obtain ⟨rfl, _⟩ := List.cons.inj hchanges
      refine ⟨l, (Disk.keepsDirectories_put hfile _).resolve (h.path i ▸ hresolve), ?_⟩
      exact (Disk.entry?_put hfile _ l).trans (if_pos rfl)
    case rereads =>
      intro j other hother
      change Slot.Rereads made.nesting other
      rw [hnesting]
      rcases List.mem_cons.mp hother with heq | hother
      · cases heq
        exact hsave
      · exact h.rereads j other hother

theorem Kept.remove (h : k.Kept) : (k.step .remove).Kept := by
  unfold step
  dsimp only
  split
  · rename_i disk hremove
    obtain ⟨l, hresolve, ⟨bytes, hfile⟩, rfl⟩ := Disk.remove_eq_ok.mp hremove
    have hplain : k.disk.entry? l ≠ some .directory := by simp [hfile]
    refine ⟨h.path, h.memory, ?slot, ?rereads⟩
    case slot =>
      intro change rest hchanges
      obtain ⟨rfl, _⟩ := List.cons.inj hchanges
      refine ⟨l, (Disk.keepsDirectories_erase hplain).resolve hresolve, ?_⟩
      intro bytes
      simp [Disk.entry?_erase hplain]
    case rereads =>
      intro i save hsave
      exact h.rereads i save (by simpa using hsave)
  · exact h

theorem Kept.run (h : k.Kept) {actions : List (SlotAction ι)}
    (hactions : ∀ i save, .write i save ∈ actions → Slot.Rereads k.disk.nesting save) :
    (k.run actions).Kept := by
  induction actions generalizing k with
  | nil => exact h
  | cons action actions ih =>
    have hlater : ∀ i save, .write i save ∈ actions → Slot.Rereads (k.step action).disk.nesting save := by
      intro i save hmem
      rw [step_nesting]
      exact hactions i save (List.mem_cons_of_mem _ hmem)
    cases action with
    | write i save => exact ih (h.write i (hactions i save List.mem_cons_self)) hlater
    | remove => exact ih h.remove hlater

/-! ## What a write reports -/

theorem written_of_lastBy {i : ι} {mine : Assoc Json} (h : k.lastBy i = some mine) :
    .written i mine ∈ k.changes := by
  obtain ⟨change, hchange, hsaved⟩ := List.exists_of_findSome?_eq_some h
  cases change with
  | removed => cases hsaved
  | written j save =>
    rw [SlotChange.savedBy] at hsaved
    split at hsaved
    · rename_i hj
      rw [← hj, ← Option.some.inj hsaved]
      exact hchange
    · cases hsaved

/-- A store skips a write exactly if the last save that it has written was the same. -/
theorem Kept.write_eq_false_iff (h : k.Kept) (i : ι) {save : Assoc Json}
    (hsave : Slot.Rereads k.disk.nesting save) :
    ((k.stores i).write save k.disk).result = .ok false ↔
      ∃ mine, k.lastBy i = some mine ∧ Slot.SameButTime mine save := by
  have hmemory : (k.stores i).lastWritten = some (Slot.identityText save) ↔
      ∃ mine, k.lastBy i = some mine ∧ Slot.SameButTime mine save := by
    rw [h.memory i, Option.map_eq_some_iff]
    refine exists_congr fun mine => and_congr_right fun hmine => ?_
    exact Slot.identityText_eq_iff (h.rereads i mine (written_of_lastBy hmine)) hsave
  rw [← hmemory]
  have hends := (k.stores i).write_ends save k.disk
  generalize (k.stores i).write save k.disk = turn at hends
  cases hends with
  | skipped hsame => simp [hsame]
  | failed hnew => simp [hnew]
  | written hnew => simp [hnew]

theorem Kept.read_of_written (h : k.Kept) (i : ι) {j : ι} {kept : Assoc Json} {rest : List (SlotChange ι)}
    (hlast : k.changes = .written j kept :: rest) : (k.stores i).holds k.disk = .ok true ∧
      (k.stores i).read k.disk = .ok (some (Json.object kept).sortedMembers) := by
  obtain ⟨l, hresolve, hfile⟩ := h.slot _ rest hlast
  have hpage := (h.rereads j kept (hlast ▸ List.mem_cons_self)).page
  exact Slot.read_of_file (h.path i ▸ hresolve) hfile hpage

/-- A slot that has been changed gives a save back exactly if the latest change was to write it. -/
theorem Kept.givesBack_iff (h : k.Kept) (i : ι) {save : Assoc Json} (hchanged : k.changes ≠ []) :
    (k.stores i).GivesBack k.disk save ↔
      ∃ j kept rest, k.changes = .written j kept :: rest ∧ Slot.SameButTime kept save := by
  constructor
  · rintro ⟨_, kept, hsame, hread⟩
    cases hlast : k.changes with
    | nil => exact absurd hlast hchanged
    | cons change rest =>
      cases change with
      | written j last =>
        have hlastRead := (h.read_of_written i hlast).2
        have heq := Option.some.inj (Except.ok.inj (hlastRead.symm.trans hread))
        exact ⟨j, last, rest, rfl, (Json.sortedMembers_erase heq Slot.timeKey).trans hsame⟩
      | removed =>
        obtain ⟨l, hresolve, hnone⟩ := h.slot _ rest hlast
        exact absurd hread (Slot.read_ne_some (h.path i ▸ hresolve) hnone _)
  · rintro ⟨j, kept, rest, hlast, hsame⟩
    obtain ⟨hholds, hread⟩ := h.read_of_written i hlast
    exact ⟨hholds, kept, hsame, hread⟩

theorem Kept.reads_written (h : k.Kept) (i : ι) {save : Assoc Json}
    (hsave : Slot.Rereads k.disk.nesting save)
    (hresult : ((k.stores i).write save k.disk).result = .ok true) :
    ((k.stores i).write save k.disk).slot.holds ((k.stores i).write save k.disk).disk = .ok true ∧
      ((k.stores i).write save k.disk).slot.read ((k.stores i).write save k.disk).disk =
        .ok (some (Json.object save).sortedMembers) := by
  have hlater := h.write i hsave
  have hstore : (k.step (.write i save)).stores i = ((k.stores i).write save k.disk).slot :=
    Function.update_self ..
  have hlast : (k.step (.write i save)).changes = .written i save :: k.changes := by
    simp [step, hresult]
  rw [← hstore]
  exact hlater.read_of_written i hlast

/-- What a write reports, whatever was done to the slot before. A save that is reported as written is in the slot.
A write is skipped exactly if the store's own last save was the same; then the disk is left alone, and the slot gives
the save back only if nobody has removed it or written another one since. -/
theorem write_reports (hk : k.Fresh) {actions : List (SlotAction ι)}
    (hactions : ∀ i save, .write i save ∈ actions → Slot.Rereads k.disk.nesting save) (i : ι) {save : Assoc Json}
    (hsave : Slot.Rereads k.disk.nesting save) :
    let past := k.run actions
    let turn := (past.stores i).write save past.disk
    (turn.result = .ok true → turn.slot.holds turn.disk = .ok true ∧
      turn.slot.read turn.disk = .ok (some (Json.object save).sortedMembers)) ∧
    (turn.result = .ok false ↔ ∃ mine, past.lastBy i = some mine ∧ Slot.SameButTime mine save) ∧
    (turn.result = .ok false → turn.disk = past.disk ∧ (turn.slot.GivesBack turn.disk save ↔
      ∃ j kept rest, past.changes = .written j kept :: rest ∧ Slot.SameButTime kept save)) := by
  intro past turn
  have hpast : past.Kept := hk.kept.run hactions
  replace hsave : Slot.Rereads past.disk.nesting save := (k.run_nesting actions).symm ▸ hsave
  refine ⟨hpast.reads_written i hsave, hpast.write_eq_false_iff i hsave, ?_⟩
  intro hresult
  obtain ⟨hslot, hdisk⟩ : turn.slot = past.stores i ∧ turn.disk = past.disk := Slot.write_eq_false hresult
  rw [hslot, hdisk]
  refine ⟨rfl, hpast.givesBack_iff i ?_⟩
  obtain ⟨mine, hmine, _⟩ := (hpast.write_eq_false_iff i hsave).mp hresult
  exact List.ne_nil_of_mem (written_of_lastBy hmine)

/-- Every change of the slot was a write of this one store. -/
def Alone (k : Desk ι) (i : ι) : Prop := ∀ change ∈ k.changes, ∃ save, change = .written i save

theorem Alone.run {i : ι} (h : k.Alone i) {actions : List (SlotAction ι)}
    (halone : ∀ action ∈ actions, ∃ save, action = .write i save) : (k.run actions).Alone i := by
  induction actions generalizing k with
  | nil => exact h
  | cons action actions ih =>
    refine ih ?_ fun other hother => halone other (List.mem_cons_of_mem _ hother)
    obtain ⟨save, rfl⟩ := halone action List.mem_cons_self
    unfold step
    dsimp only
    intro change hchange
    split at hchange
    · rcases List.mem_cons.mp hchange with rfl | hchange
      · exact ⟨save, rfl⟩
      · exact h change hchange
    · exact h change hchange

/-- A store that nobody else interferes with gives back every save that it does not fail to write. -/
theorem givesBack_of_alone (hk : k.Fresh) {actions : List (SlotAction ι)} {i : ι}
    (halone : ∀ action ∈ actions, ∃ save, action = .write i save)
    (hactions : ∀ i save, .write i save ∈ actions → Slot.Rereads k.disk.nesting save) {save : Assoc Json}
    (hsave : Slot.Rereads k.disk.nesting save) {written : Bool} :
    let past := k.run actions
    let turn := (past.stores i).write save past.disk
    turn.result = .ok written → turn.slot.GivesBack turn.disk save := by
  intro past turn hresult
  have hpast : past.Kept := hk.kept.run hactions
  replace hsave : Slot.Rereads past.disk.nesting save := (k.run_nesting actions).symm ▸ hsave
  have hown : past.Alone i := by
    refine Alone.run ?_ halone
    rw [Alone, hk.changes]
    exact fun _ h => absurd h List.not_mem_nil
  cases written with
  | true =>
    obtain ⟨hholds, hread⟩ := hpast.reads_written i hsave hresult
    exact ⟨hholds, save, rfl, hread⟩
  | false =>
    obtain ⟨hslot, hdisk⟩ : turn.slot = past.stores i ∧ turn.disk = past.disk := Slot.write_eq_false hresult
    obtain ⟨mine, hmine, hsame⟩ := (hpast.write_eq_false_iff i hsave).mp hresult
    rw [hslot, hdisk, hpast.givesBack_iff i (List.ne_nil_of_mem (written_of_lastBy hmine))]
    cases hlast : past.changes with
    | nil => exact absurd (hlast ▸ written_of_lastBy hmine) List.not_mem_nil
    | cons change rest =>
      obtain ⟨kept, rfl⟩ := hown change (hlast ▸ List.mem_cons_self)
      obtain rfl : kept = mine := by simpa [lastBy, hlast, SlotChange.savedBy] using hmine
      exact ⟨i, kept, rest, rfl, hsame⟩

end Desk

/-! ## Two sessions in the working directory -/

namespace Slot

variable {d : Disk} {save : Assoc Json} {m : Option String}

theorem write_of_same {s : Slot} (h : s.lastWritten = some (identityText save)) :
    s.write save d = { slot := s, disk := d, notices := [.saveUnchanged], result := .ok false } := if_pos h

theorem write_here (hnew : m ≠ some (identityText save))
    (hfile : d.entry? #["quick_save.json"] ≠ some .directory) :
    ({ directory := {}, lastWritten := m } : Slot).write save d =
      { slot := { directory := {}, lastWritten := some (identityText save) }
        disk := d.put #["quick_save.json"] (.file (bytesOf save))
        notices := [.saveWritten "quick_save.json"]
        result := .ok true } := by
  have hwrite : d.writeDocument { parts := ["quick_save.json"] } (.object save) =
      .ok (d.put #["quick_save.json"] (.file (bytesOf save))) :=
    Disk.write_eq_ok.mpr ⟨_, resolve_here d, hfile, rfl⟩
  have htext : ({ parts := ["quick_save.json"] } : Path).text = "quick_save.json" := by decide +kernel
  have hpath : Slot.path { directory := {}, lastWritten := m } = { parts := ["quick_save.json"] } := path_here
  unfold write
  dsimp only
  rw [if_neg hnew, Disk.makeDirs_here, hpath]
  dsimp only
  rw [hwrite, htext]

end Slot

def torchSave (time : String) : Assoc Json :=
  [("version", .int 1), ("timestamp", .string time), ("flags", .object [("lit", .bool true)])]

def lampSave : Assoc Json := [("version", .int 1), ("timestamp", .string "noon"), ("flags", .object [])]

theorem rereads_lampSave : Slot.Rereads 980 lampSave := by
  constructor
  · rw [Json.ofBytes, Utf8.decode_encode]
    rfl
  · rfl

theorem rereads_torchSave {time : String} (h : time = "noon" ∨ time = "night") : Slot.Rereads 980 (torchSave time) := by
  rcases h with rfl | rfl
  all_goals
    constructor
    · rw [Json.ofBytes, Utf8.decode_encode]
      rfl
    · rfl

namespace Desk

section Here

variable {ι : Type} [DecidableEq ι] {k : Desk ι}

theorem step_write_here {i : ι} {m : Option String} {save : Assoc Json}
    (hstore : k.stores i = { directory := {}, lastWritten := m })
    (hnew : m ≠ some (Slot.identityText save)) (hfile : k.disk.entry? #["quick_save.json"] ≠ some .directory) :
    k.step (.write i save) =
      { path := k.path
        stores := Function.update k.stores i { directory := {}, lastWritten := some (Slot.identityText save) }
        disk := k.disk.put #["quick_save.json"] (.file (Slot.bytesOf save))
        changes := .written i save :: k.changes } := by
  rw [step, hstore, Slot.write_here hnew hfile]
  rfl

theorem step_remove_here {bytes : List UInt8} (hpath : k.path = { parts := ["quick_save.json"] })
    (hfile : k.disk.entry? #["quick_save.json"] = some (.file bytes)) :
    k.step .remove =
      { k with disk := k.disk.erase #["quick_save.json"], changes := .removed :: k.changes } := by
  rw [step, hpath, Disk.remove_eq_ok.mpr ⟨_, Slot.resolve_here k.disk, ⟨bytes, hfile⟩, rfl⟩]

end Here

def pair : Desk Bool :=
  { path := { parts := ["quick_save.json"] }, stores := fun _ => { directory := {} }, disk := {} }

theorem pair_fresh : pair.Fresh := ⟨fun _ => Slot.path_here, fun _ => rfl, rfl⟩

theorem step_pair (time : String) : pair.step (.write false (torchSave time)) =
    { path := pair.path
      stores := Function.update pair.stores false
        { directory := {}, lastWritten := some (Slot.identityText (torchSave time)) }
      disk := { entries := [(#["quick_save.json"], .file (Slot.bytesOf (torchSave time)))] }
      changes := [.written false (torchSave time)] } :=
  step_write_here rfl (Option.some_ne_none _).symm (by decide)

theorem run_pair_removed : ∃ disk : Disk, disk.entry? #["quick_save.json"] = none ∧
    pair.run [.write false (torchSave "noon"), .remove] =
      { path := pair.path
        stores := Function.update pair.stores false
          { directory := {}, lastWritten := some (Slot.identityText (torchSave "noon")) }
        disk
        changes := [.removed, .written false (torchSave "noon")] } := by
  refine ⟨{ entries := [] }, rfl, ?_⟩
  have hrun : pair.run [.write false (torchSave "noon"), .remove] =
      (pair.step (.write false (torchSave "noon"))).step .remove := rfl
  rw [hrun, step_pair, step_remove_here rfl rfl]
  rfl

/-- What the same store is then given to save at night is skipped, and the slot stays empty. -/
theorem pair_loses_save :
    let past := pair.run [.write false (torchSave "noon"), .remove]
    let turn := (past.stores false).write (torchSave "night") past.disk
    turn.result = .ok false ∧ turn.slot.holds turn.disk = .ok false ∧
      ¬ turn.slot.GivesBack turn.disk (torchSave "night") := by
  obtain ⟨disk, hnone, hrun⟩ := run_pair_removed
  have hsame : Slot.identityText (torchSave "noon") = Slot.identityText (torchSave "night") := rfl
  intro past turn
  change past = _ at hrun
  have hturn : turn = ⟨past.stores false, past.disk, [.saveUnchanged], .ok false⟩ := by
    refine Slot.write_of_same ?_
    rw [← hsame, hrun]
    rfl
  have hholds : turn.slot.holds turn.disk = .ok false := by
    have hpath : (past.stores false).path = { parts := ["quick_save.json"] } := by
      rw [hrun]
      exact Slot.path_here
    have hempty : past.disk.entry? #["quick_save.json"] = none := by rw [hrun, hnone]
    rw [hturn, Slot.holds, hpath, Disk.contains, Slot.resolve_here]
    simp only [hempty, Option.isSome_none]
  refine ⟨by rw [hturn], hholds, ?_⟩
  rintro ⟨htrue, _⟩
  cases hholds.symm.trans htrue

/-- One store saves in between what the other is given twice. -/
theorem pair_write_reports :
    let past := pair.run [.write false (torchSave "noon"), .write true lampSave]
    let turn := (past.stores false).write (torchSave "night") past.disk
    turn.result = .ok false ∧ ¬ turn.slot.GivesBack turn.disk (torchSave "night") := by
  intro past turn
  have hactions : ∀ i save, .write i save ∈ [SlotAction.write false (torchSave "noon"), .write true lampSave] →
      Slot.Rereads 980 save := by
    intro i save hmem
    rcases List.mem_cons.mp hmem with heq | hmem
    · cases heq
      exact rereads_torchSave (.inl rfl)
    · cases List.mem_singleton.mp hmem
      exact rereads_lampSave
  obtain ⟨hwritten, hfalse, hskipped⟩ := write_reports pair_fresh hactions false (rereads_torchSave (.inr rfl))
  have hpast : past.changes = [.written true lampSave, .written false (torchSave "noon")] := by
    have hrun : past = (pair.step (.write false (torchSave "noon"))).step (.write true lampSave) := rfl
    have hfile : (pair.step (.write false (torchSave "noon"))).disk.entry? #["quick_save.json"] =
        some (.file (Slot.bytesOf (torchSave "noon"))) := by
      rw [step_pair]
      rfl
    rw [hrun, step_write_here (m := none) (by rw [step_pair]; rfl) (Option.some_ne_none _).symm (by simp [hfile]),
      step_pair]
  have hresult : turn.result = .ok false := by
    refine hfalse.mpr ⟨torchSave "noon", ?_, rfl⟩
    change past.changes.findSome? _ = _
    rw [hpast]
    rfl
  refine ⟨hresult, fun hback => ?_⟩
  obtain ⟨j, kept, rest, hlast, hsame⟩ := (hskipped hresult).2.mp hback
  cases hpast.symm.trans hlast
  have htext := (Slot.identityText_eq_iff rereads_lampSave (rereads_torchSave (.inr rfl))).mpr hsame
  exact absurd htext (by decide +kernel)

end Desk
end BranchingStory
