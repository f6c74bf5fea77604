import BranchingStory.Proofs.JsonFaults
import BranchingStory.Proofs.SnapshotFaults

/-!
# Snapshots and stories that nest too deep

Choices and reactions of a snapshot or a story stand inside each other, and reading them takes room for each. With
so much room either is read as it is without a limit, unless reading stops for want of room; and then it nests at
least twice as deep, since each choice and each reaction takes an object and a list.
-/

namespace BranchingStory

namespace Attempt

variable {ε ε' α β : Type} {e : ε} {P Q : Prop}

/-- The first attempt is the second, unless it stops with one fault, and then something is the case. -/
def IsUnless (e : ε) (P : Prop) (x y : Attempt ε α) : Prop := x = y ∨ x.result = .error e ∧ P

theorem IsUnless.refl (x : Attempt ε α) : IsUnless e P x x := .inl rfl

theorem IsUnless.imp {x y : Attempt ε α} (h : IsUnless e P x y) (himp : P → Q) : IsUnless e Q x y := by
  rcases h with rfl | ⟨hstops, hp⟩
  · exact .refl x
  · exact .inr ⟨hstops, himp hp⟩

theorem IsUnless.bind {x y : Attempt ε α} {f g : α → Attempt ε β} (hx : IsUnless e P x y)
    (hf : ∀ a, IsUnless e P (f a) (g a)) : IsUnless e P (x >>= f) (y >>= g) := by
  rcases hx with rfl | ⟨hstops, hp⟩
  · obtain ⟨result, notices⟩ := x
    cases result with
    | error fault => exact .inl rfl
    | ok a =>
      rcases hf a with hsame | ⟨hstops, hp⟩
      · exact .inl (by simp only [Bind.bind, hsame])
      · exact .inr ⟨by simpa only [Bind.bind] using hstops, hp⟩
  · exact .inr ⟨result_bind_eq_error.mpr (.inl hstops), hp⟩

theorem IsUnless.mapError {x y : Attempt ε α} (h : IsUnless e P x y) (f : ε → ε') :
    IsUnless (f e) P (x.mapError f) (y.mapError f) := by
  rcases h with rfl | ⟨hstops, hp⟩
  · exact .refl _
  · exact .inr ⟨by rw [result_mapError, hstops]; rfl, hp⟩

theorem IsUnless.mapM {γ : Type} {f g : γ → Attempt ε β} {stops : γ → Prop} {items : List γ}
    (h : ∀ item ∈ items, IsUnless e (stops item) (f item) (g item)) :
    IsUnless e (∃ item ∈ items, stops item) (items.mapM f) (items.mapM g) := by
  induction items with
  | nil => exact .refl _
  | cons first rest ih =>
    rw [List.mapM_cons, List.mapM_cons]
    have hfirst := (h first List.mem_cons_self).imp (Q := ∃ item ∈ first :: rest, stops item)
      fun hstops => ⟨first, List.mem_cons_self, hstops⟩
    refine hfirst.bind fun b => ?_
    have hrest := (ih fun item hitem => h item (List.mem_cons_of_mem _ hitem)).imp
      (Q := ∃ item ∈ first :: rest, stops item)
      fun ⟨item, hitem, hstops⟩ => ⟨item, List.mem_cons_of_mem _ hitem, hstops⟩
    exact hrest.bind fun bs => .refl _

end Attempt

open Attempt (IsUnless)

/-! ## Lists of choices and reactions -/

theorem Node.choiceItems_eq_mapM (place : String) (index : Nat) (items : List Json) :
    Node.choiceItems place index items =
      (items.zipIdx index).mapM fun entry => Choice.read (itemPlace place entry.2) entry.1 := by
  induction items generalizing index with
  | nil => rfl
  | cons item items ih =>
    rw [Node.choiceItems, List.zipIdx_cons, List.mapM_cons, ih]

theorem Node.choicesOf_eq (place : String) (j : Json) :
    Node.choicesOf place j = Reading.optionalList place Choice.read j := by
  cases j with
  | array items => exact Node.choiceItems_eq_mapM place 0 items
  | _ => rfl

theorem Choice.reactionItems_eq_mapM (place : String) (index : Nat) (items : List Json) :
    Choice.reactionItems place index items =
      (items.zipIdx index).mapM fun entry => Node.read (itemPlace place entry.2) entry.1 := by
  induction items generalizing index with
  | nil => rfl
  | cons item items ih =>
    rw [Choice.reactionItems, List.zipIdx_cons, List.mapM_cons, ih]

theorem Choice.reactionsOf_eq (place : String) (j : Json) :
    Choice.reactionsOf place j = Reading.optionalList place Node.read j := by
  cases j with
  | array items => exact Choice.reactionItems_eq_mapM place 0 items
  | _ => rfl

theorem Reading.items_isUnless {α : Type} {c : Complaint} {read limited : String → Json → Reading α}
    {deep : Json → Prop} (h : ∀ place j, IsUnless c (deep j) (limited place j) (read place j)) (place : String)
    (items : List Json) : IsUnless c (∃ item ∈ items, deep item)
      (items.zipIdx.mapM fun entry => limited (itemPlace place entry.2) entry.1)
      (items.zipIdx.mapM fun entry => read (itemPlace place entry.2) entry.1) := by
  refine (IsUnless.mapM fun entry _ => h _ entry.1).imp ?_
  rintro ⟨entry, hentry, hdeep⟩
  exact ⟨entry.1, List.fst_mem_of_mem_zipIdx hentry, hdeep⟩

theorem Reading.optionalList_isUnless {α : Type} {c : Complaint} {read limited : String → Json → Reading α}
    {deep : Json → Prop} (h : ∀ place j, IsUnless c (deep j) (limited place j) (read place j)) (place : String)
    (j : Json) : IsUnless c (∃ items item, j = .array items ∧ item ∈ items ∧ deep item)
      (optionalList place limited j) (optionalList place read j) := by
  cases j with
  | array items =>
    refine (items_isUnless h place items).imp ?_
    rintro ⟨item, hitem, hdeep⟩
    exact ⟨items, item, rfl, hitem, hdeep⟩
  | _ => exact .refl _

theorem Reading.field_of_getD {members : Assoc Json} {key : String} {items : List Json} {item : Json}
    (h : (Assoc.get? members key).getD (.array []) = .array items) (hitem : item ∈ items) :
    field members key = .array items := by
  cases hget : Assoc.get? members key with
  | none =>
    rw [hget] at h
    obtain rfl := Json.array.inj h
    exact absurd hitem List.not_mem_nil
  | some found =>
    rw [hget] at h
    rw [field, hget]
    exact h

/-! ## Nodes and choices -/

namespace Json

/-- The value does not nest within fewer arrays and objects than this. -/
def NestsAtLeast (depth : Nat) (j : Json) : Prop := ∀ room, NestsWithin room j → depth ≤ room

theorem bounded_field {Whole : Int → Prop} {room : Nat} {members : Assoc Json}
    (h : Bounded Whole (room + 1) (.object members)) (key : String) :
    Bounded Whole room (Reading.field members key) := by
  rw [Reading.field]
  cases hget : Assoc.get? members key with
  | none => cases room <;> trivial
  | some value =>
    have hmem : ∀ {m : Assoc Json}, Assoc.get? m key = some value → ∃ member ∈ m, member.2 = value := by
      intro m hm
      induction m with
      | nil => cases hm
      | cons first rest ih =>
        rw [Assoc.get?] at hm
        split at hm
        · exact ⟨first, List.mem_cons_self, Option.some.inj hm⟩
        · obtain ⟨member, hmember, hvalue⟩ := ih hm
          exact ⟨member, List.mem_cons_of_mem _ hmember, hvalue⟩
    obtain ⟨member, hmember, rfl⟩ := hmem hget
    exact h member hmember

theorem NestsAtLeast.not_nestsWithin {room : Nat} {j : Json} (h : NestsAtLeast (room + 1) j) : ¬ NestsWithin room j :=
  fun hwithin => Nat.not_succ_le_self room (h room hwithin)

theorem nestsAtLeast_array {depth : Nat} {items : List Json} {item : Json} (hitem : item ∈ items)
    (h : NestsAtLeast depth item) : NestsAtLeast (depth + 1) (.array items) := by
  intro room hroom
  cases room with
  | zero => exact hroom.elim
  | succ room => exact Nat.add_le_add_right (h room (hroom item hitem)) 1

/-- What stands in a list of a member nests two less deep. -/
theorem nestsAtLeast_object {depth : Nat} {members : Assoc Json} {key : String} {items : List Json} {item : Json}
    (hitems : Reading.field members key = .array items) (hitem : item ∈ items) (h : NestsAtLeast depth item) :
    NestsAtLeast (depth + 2) (.object members) := by
  intro room hroom
  cases room with
  | zero => exact hroom.elim
  | succ room =>
    have hlist := bounded_field hroom key
    rw [hitems] at hlist
    exact Nat.add_le_add_right (nestsAtLeast_array hitem h room hlist) 1

end Json

theorem Authored.node_isUnless {c : Complaint} {P : Prop} {place : String} {members : Assoc Json}
    {limited choices : String → Reading (List Choice)} (h : ∀ place, IsUnless c P (limited place) (choices place)) :
    IsUnless c P (node place members limited) (node place members choices) := by
  unfold node
  exact (IsUnless.refl _).bind fun id => (IsUnless.refl _).bind fun kind => (h _).bind fun choices => .refl _

theorem Authored.choice_isUnless {c : Complaint} {P : Prop} {place : String} {members : Assoc Json}
    {limited reactions : Reading (List Node)} (h : IsUnless c P limited reactions) :
    IsUnless c P (choice place members limited) (choice place members reactions) := by
  unfold choice
  exact h.bind fun reactions => .refl _

/-- With so much room a node or a choice is read as without a limit, or it nests at least twice as deep. -/
theorem readWithin_isUnless (room : Nat) :
    (∀ place j, IsUnless .tooDeep (j.NestsAtLeast (2 * room)) (Node.readWithin room place j) (Node.read place j)) ∧
    ∀ place j, IsUnless .tooDeep (j.NestsAtLeast (2 * room)) (Choice.readWithin room place j)
      (Choice.read place j) := by
  induction room with
  | zero =>
    refine ⟨fun place j => .inr ⟨?_, fun _ _ => Nat.zero_le _⟩, fun place j => .inr ⟨?_, fun _ _ => Nat.zero_le _⟩⟩
    · rw [Node.readWithin]
      rfl
    · rw [Choice.readWithin]
      rfl
  | succ room ih =>
    obtain ⟨hnode, hchoice⟩ := ih
    refine ⟨?nodes, ?choices⟩
    case nodes =>
      intro place j
      cases j with
      | object members =>
        rw [Node.readWithin, Node.read]
        refine Authored.node_isUnless fun place => ?_
        rw [Node.choicesAmong_eq, Node.choicesOf_eq]
        refine (Reading.optionalList_isUnless hchoice _ _).imp ?_
        rintro ⟨items, item, hitems, hitem, hdeep⟩
        exact Json.nestsAtLeast_object hitems hitem hdeep
      | _ => exact .inl (by rw [Node.readWithin, Node.read] <;> simp)
    case choices =>
      intro place j
      cases j with
      | object members =>
        rw [Choice.readWithin, Choice.read, Choice.reactionsAmong_eq, Choice.reactionsOf_eq]
        refine (Authored.choice_isUnless (Reading.optionalList_isUnless hnode _ _)).imp ?_
        rintro ⟨items, item, hitems, hitem, hdeep⟩
        exact Json.nestsAtLeast_object hitems hitem hdeep
      | _ => exact .inl (by rw [Choice.readWithin, Choice.read] <;> simp)

/-! ## Stories -/

namespace Graph

theorem nodesWithin_isUnless (room : Nat) (j : Json) :
    IsUnless .tooDeep (∃ items item, j = .array items ∧ item ∈ items ∧ item.NestsAtLeast (2 * room))
      (nodesBy (Node.readWithin room) j) (nodesBy Node.read j) := by
  cases j with
  | array items =>
    refine (Reading.items_isUnless (readWithin_isUnless room).1 _ items).imp ?_
    rintro ⟨item, hitem, hdeep⟩
    exact ⟨items, item, rfl, hitem, hdeep⟩
  | _ => exact .refl _

/-- With so much room a story is read as without a limit, or it nests deeper. -/
theorem readWithin_isUnless (room : Nat) (j : Json) :
    IsUnless .tooDeep (j.NestsAtLeast (2 * room + 1)) (readWithin room j) (read j) := by
  have hlist : IsUnless .tooDeep (j.NestsAtLeast (2 * room + 1))
      (nodesBy (Node.readWithin room) j >>= fun nodes => (pure { nodes } : Reading Graph))
      (nodesBy Node.read j >>= fun nodes => pure { nodes }) := by
    refine ((nodesWithin_isUnless room j).imp ?_).bind fun nodes => .refl _
    rintro ⟨items, item, rfl, hitem, hdeep⟩
    exact Json.nestsAtLeast_array hitem hdeep
  cases j with
  | object members =>
    refine (IsUnless.refl _).bind fun initialAmbience => ?_
    refine ((nodesWithin_isUnless room _).imp ?_).bind fun nodes => .refl _
    rintro ⟨items, item, hitems, hitem, hdeep⟩
    have hnested := Json.nestsAtLeast_object (Reading.field_of_getD hitems hitem) hitem hdeep
    exact fun depth hdepth => Nat.le_of_succ_le (hnested depth hdepth)
  | _ => exact hlist

end Graph

/-! ## Snapshots -/

namespace Restoring

theorem choices_isUnless (room index : Nat) (kind : NodeKind) (j : Json) :
    IsUnless .tooDeep (∃ items item, j = .array items ∧ item ∈ items ∧ item.NestsAtLeast (2 * room))
      (choices (Node.choicesWithin room) index kind j) (choices Node.choicesOf index kind j) := by
  cases j with
  | array items =>
    rw [choices, choices]
    split
    · rw [Node.choicesWithin, Node.choicesOf_eq]
      exact (Reading.optionalList_isUnless (readWithin_isUnless room).2 _ _).mapError RestoreFault.ofComplaint
    · exact .refl _
  | _ => exact .refl _

theorem block_isUnless (room index : Nat) (j : Json) :
    IsUnless .tooDeep (j.NestsAtLeast (2 * room + 2)) (block (Node.choicesWithin room) index j)
      (block Node.choicesOf index j) := by
  cases j with
  | object members =>
    refine (IsUnless.refl _).bind fun id => (IsUnless.refl _).bind fun kind => (IsUnless.refl _).bind fun text => ?_
    refine (IsUnless.refl _).bind fun frozen => (IsUnless.refl _).bind fun speaker => ?_
    refine ((choices_isUnless room index kind _).imp ?_).bind fun choices => .refl _
    rintro ⟨items, item, hitems, hitem, hdeep⟩
    exact Json.nestsAtLeast_object hitems hitem hdeep
  | _ => exact .refl _

theorem blocks_isUnless (room index : Nat) (items : List Json) :
    IsUnless .tooDeep (∃ item ∈ items, item.NestsAtLeast (2 * room + 2))
      (blocks (Node.choicesWithin room) index items) (blocks Node.choicesOf index items) := by
  induction items generalizing index with
  | nil => exact .refl _
  | cons first rest ih =>
    refine ((block_isUnless room index first).imp ?_).bind fun b => ((ih (index + 1)).imp ?_).bind fun bs => .refl _
    · exact fun hdeep => ⟨first, List.mem_cons_self, hdeep⟩
    · exact fun ⟨item, hitem, hdeep⟩ => ⟨item, List.mem_cons_of_mem _ hitem, hdeep⟩

theorem mem_of_mem_kept {α : Type} {bound : Int} {items : List α} {item : α} (h : item ∈ kept bound items) :
    item ∈ items := by
  unfold kept at h
  split at h
  · exact mem_of_mem_latest h
  · exact List.mem_of_mem_drop h

theorem historyBlocks_isUnless (room : Nat) (g : Graph) (bound : Int) (members : Assoc Json) :
    IsUnless .tooDeep ((Json.object members).NestsAtLeast (2 * room + 4))
      (historyBlocks (Node.choicesWithin room) g bound members) (historyBlocks Node.choicesOf g bound members) := by
  unfold historyBlocks
  split_ifs
  · exact .refl _
  · refine (IsUnless.refl _).bind fun _ => ?_
    split
    · rename_i items hitems
      refine (blocks_isUnless room 0 _).imp ?_
      rintro ⟨item, hitem, hdeep⟩
      exact Json.nestsAtLeast_object hitems (mem_of_mem_kept hitem) hdeep
    · exact .refl _

end Restoring

namespace History

/-- With so much room a snapshot is read as without a limit, or it nests deeper. -/
theorem ofSnapshotWithin_isUnless (room : Nat) (g : Graph) (bound : Int) (snapshot : Json) :
    IsUnless .tooDeep (snapshot.NestsAtLeast (2 * room + 4)) (ofSnapshotWithin room g bound snapshot)
      (ofSnapshot g bound snapshot) := by
  cases snapshot with
  | object members =>
    refine (IsUnless.refl _).bind fun current => ?_
    exact (Restoring.historyBlocks_isUnless room g bound members).bind fun blocks => .refl _
  | _ => exact .refl _

theorem ofSnapshotWithin_of_nestsWithin {room : Nat} {snapshot : Json} (h : snapshot.NestsWithin (2 * room + 3))
    (g : Graph) (bound : Int) : ofSnapshotWithin room g bound snapshot = ofSnapshot g bound snapshot := by
  rcases ofSnapshotWithin_isUnless room g bound snapshot with hsame | ⟨_, hdeep⟩
  · exact hsame
  · exact absurd h hdeep.not_nestsWithin

theorem ofSnapshot_of_within_eq_ok {room : Nat} {g : Graph} {bound : Int} {snapshot : Json} {h : History}
    (hread : (ofSnapshotWithin room g bound snapshot).result = .ok h) : (ofSnapshot g bound snapshot).result = .ok h := by
  rcases ofSnapshotWithin_isUnless room g bound snapshot with hsame | ⟨hstops, _⟩
  · rw [← hsame, hread]
  · cases hread.symm.trans hstops

theorem of_ofSnapshotWithin_eq_error {room : Nat} {g : Graph} {bound : Int} {snapshot : Json} {fault : RestoreFault}
    (hbound : 1 ≤ bound) (hforeign : Restoring.IsForeign fault)
    (hread : (ofSnapshotWithin room g bound snapshot).result = .error fault) :
    fault = .volumeTooLarge ∧ Oversize bound snapshot ∨ fault = .versionTooLong ∧ LongVersion snapshot ∨
      fault = .tooDeep ∧ ¬ snapshot.NestsWithin (2 * room + 3) := by
  rcases ofSnapshotWithin_isUnless room g bound snapshot with hsame | ⟨hstops, hdeep⟩
  · rw [hsame] at hread
    exact (of_ofSnapshot_eq_error hbound hforeign hread).imp_right .inl
  · exact .inr (.inr ⟨Except.error.inj (hread.symm.trans hstops), hdeep.not_nestsWithin⟩)

/-- Over every graph, with any room for blocks and any room for what nests, reading a snapshot gives a history, or
refuses the snapshot as malformed, or stops: at a volume that is too large for a double, at a version that cannot be
told, or because the snapshot nests too deep. Each happens only if there is such a volume, such a version, or more
nesting than there is room for; a snapshot with such a volume or version is never read, and one that does not nest
too deep is read as it is without a limit. -/
theorem ofSnapshotWithin_outcomes (room : Nat) (g : Graph) {bound : Int} (hbound : 1 ≤ bound) (snapshot : Json) :
    ((∃ h, (ofSnapshotWithin room g bound snapshot).result = .ok h ∧ ¬ Oversize bound snapshot ∧
        ¬ LongVersion snapshot) ∨
      (∃ fault, (ofSnapshotWithin room g bound snapshot).result = .error (.snapshot fault)) ∨
      ((ofSnapshotWithin room g bound snapshot).result = .error .volumeTooLarge ∧ Oversize bound snapshot) ∨
      ((ofSnapshotWithin room g bound snapshot).result = .error .versionTooLong ∧ LongVersion snapshot) ∨
      (ofSnapshotWithin room g bound snapshot).result = .error .tooDeep ∧ ¬ snapshot.NestsWithin (2 * room + 3)) ∧
    (snapshot.NestsWithin (2 * room + 3) → ofSnapshotWithin room g bound snapshot = ofSnapshot g bound snapshot) := by
  refine ⟨?_, fun h => ofSnapshotWithin_of_nestsWithin h g bound⟩
  cases hread : (ofSnapshotWithin room g bound snapshot).result with
  | ok h =>
    have hplain := ofSnapshot_of_within_eq_ok hread
    exact .inl ⟨h, rfl, not_oversize_of_ofSnapshot_eq_ok hplain, not_longVersion_of_ofSnapshot_eq_ok hplain⟩
  | error fault =>
    by_cases hforeign : Restoring.IsForeign fault
    · rcases of_ofSnapshotWithin_eq_error hbound hforeign hread with ⟨rfl, hover⟩ | ⟨rfl, hlong⟩ | ⟨rfl, hdeep⟩
      · exact .inr (.inr (.inl ⟨rfl, hover⟩))
      · exact .inr (.inr (.inr (.inl ⟨rfl, hlong⟩)))
      · exact .inr (.inr (.inr (.inr ⟨rfl, hdeep⟩)))
    · obtain ⟨found, hfound⟩ := not_forall_not.mp hforeign
      exact .inr (.inl ⟨found, congrArg Except.error hfound⟩)

/-- A snapshot of a question. One answer to it rings a bell, at a volume of this many. -/
def bellSnapshot (volume : Nat) : Json :=
  let bell := Json.object
    [("type", .string "singleParagraph"), ("playSFX", .object [("id", .string "bell"), ("volume", .int volume)])]
  let ring := Json.object [("text", .string "Ring"), ("reaction", .array [bell])]
  .object
    [("version", .int 1), ("currentNodeId", .null),
     ("renderedBlocks", .array [.object [("type", .string "dialogueChoice"), ("choices", .array [ring])]])]

/-- A one with 309 zeros; the largest double has 309 digits. -/
def loud : Nat := Nat.pow 10 309

/-- A one with 4300 zeros has a digit more than can be told. -/
def untold : Nat := Nat.pow 10 4300

def versionSnapshot (version : Nat) : Json :=
  .object [("version", .int version), ("currentNodeId", .null), ("renderedBlocks", .array [])]

theorem eq_error_of_map {ε α β : Type} {x : Except ε α} {f : α → β} {e : ε} (h : x.map f = .error e) :
    x = .error e := by
  cases x with
  | ok a => cases h
  | error fault => exact congrArg Except.error (Except.error.inj h)

theorem ofSnapshot_bellSnapshot : (ofSnapshot {} 1 (bellSnapshot loud)).result = .error .volumeTooLarge :=
  eq_error_of_map (f := fun _ => ()) (by decide +kernel)

/-- With room for one choice the bell cannot be rung, and with more it can, if it is not too loud. -/
theorem bellSnapshot_ofSnapshotWithin_outcomes : (1 : Int) ≤ 1 ∧ Oversize 1 (bellSnapshot loud) ∧
    ¬ Oversize 1 (bellSnapshot 2) ∧ ¬ (bellSnapshot 2).NestsWithin 5 ∧ LongVersion (versionSnapshot untold) := by
  refine ⟨Int.le_refl 1, ?loud, ?low, ?deep, ?long⟩
  case loud =>
    have hread : (ofSnapshotWithin 3 {} 1 (bellSnapshot loud)).result = .error .volumeTooLarge :=
      eq_error_of_map (f := fun _ => ()) (by decide +kernel)
    have houtcomes := (ofSnapshotWithin_outcomes 3 {} (Int.le_refl 1) (bellSnapshot loud)).1
    simpa [hread] using houtcomes
  case low =>
    have hread : ((ofSnapshotWithin 3 {} 1 (bellSnapshot 2)).result.map fun _ => ()) = .ok () := by decide +kernel
    rcases (ofSnapshotWithin_outcomes 3 {} (Int.le_refl 1) (bellSnapshot 2)).1 with
      ⟨_, _, hover, _⟩ | ⟨_, hfault⟩ | ⟨hfault, _⟩ | ⟨hfault, _⟩ | ⟨hfault, _⟩
    · exact hover
    all_goals
      rw [hfault] at hread
      cases hread
  case deep =>
    have hread : (ofSnapshotWithin 1 {} 1 (bellSnapshot 2)).result = .error .tooDeep :=
      eq_error_of_map (f := fun _ => ()) (by decide +kernel)
    have houtcomes := (ofSnapshotWithin_outcomes 1 {} (Int.le_refl 1) (bellSnapshot 2)).1
    simpa [hread] using houtcomes
  case long =>
    have hread : (ofSnapshotWithin 1 {} 1 (versionSnapshot untold)).result = .error .versionTooLong :=
      eq_error_of_map (f := fun _ => ()) (by decide +kernel)
    have houtcomes := (ofSnapshotWithin_outcomes 1 {} (Int.le_refl 1) (versionSnapshot untold)).1
    simpa [hread] using houtcomes

/-- Whatever the room, not every snapshot that cannot be read is refused as malformed. -/
theorem exists_not_refused_as_malformed : ¬ ∃ room, ∀ (g : Graph) (bound : Int) (snapshot : Json), 1 ≤ bound →
    (∃ h, (ofSnapshotWithin room g bound snapshot).result = .ok h) ∨
      ∃ fault, (ofSnapshotWithin room g bound snapshot).result = .error (.snapshot fault) := by
  rintro ⟨room, hall⟩
  have hstops : ∃ fault, Restoring.IsForeign fault ∧
      (ofSnapshotWithin room {} 1 (bellSnapshot loud)).result = .error fault := by
    rcases ofSnapshotWithin_isUnless room {} 1 (bellSnapshot loud) with hsame | ⟨hdeep, _⟩
    · rw [hsame]
      exact ⟨_, fun _ => RestoreFault.noConfusion, ofSnapshot_bellSnapshot⟩
    · exact ⟨_, fun _ => RestoreFault.noConfusion, hdeep⟩
  obtain ⟨fault, hforeign, hstops⟩ := hstops
  rcases hall {} 1 (bellSnapshot loud) (Int.le_refl 1) with ⟨h, hread⟩ | ⟨found, hread⟩
  · cases hstops.symm.trans hread
  · exact hforeign found (Except.error.inj (hstops.symm.trans hread))

end History
end BranchingStory
