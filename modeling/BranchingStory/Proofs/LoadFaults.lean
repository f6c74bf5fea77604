import BranchingStory.Library.Repository
import BranchingStory.Proofs.DiskChanges
import BranchingStory.Proofs.SnapshotDepth
import BranchingStory.Proofs.Utf8

/-!
# How loading a document fails

A document that cannot be loaded is reported as such: the report names the file, or the place in it, and says what
is wrong. Five things slip through without a report. The path may hold the null character; the bytes of the file may
be no text; the text may hold a whole number with too many digits, or open too many arrays and objects inside each
other; and a story may ask for a sound at a volume that no double can hold. Nothing else does, whatever the file
holds and from whichever source.
-/

namespace BranchingStory

/-! ## Reports -/

/-- The fault is reported as one of the file. -/
def FaultKind.isReported : FaultKind → Bool
  | missing | system | malformed => true
  | value | depth => false

def LoadFault.isReported : LoadFault → Bool
  | .document _ fault => fault.kind.isReported
  | .shape _ _ => true

def LibraryFault.isReported : LibraryFault → Bool
  | .load fault => fault.isReported
  | .complaint c => c.isRefusal
  | .noEntry _ | .nothingAside => false

namespace LoadFault

variable {path : Path} {fault : DocumentFault}

theorem exists_documentMessage {kind : FaultKind} (h : kind.isReported = true) (path reason : String) :
    ∃ before after, documentMessage path reason kind = before ++ path ++ after := by
  cases kind with
  | missing => exact ⟨"Story data file not found: ", "", String.append_empty.symm⟩
  | system => exact ⟨"Unable to read story data file ", ": " ++ reason, String.append_assoc⟩
  | malformed =>
    refine ⟨"", " is not valid JSON: " ++ reason, ?_⟩
    rw [String.empty_append, ← String.append_assoc]
    rfl
  | value | depth => cases h

theorem exists_message_of_isReported (h : fault.kind.isReported = true) :
    ∃ before after, (LoadFault.document path fault).message = before ++ path.text ++ after :=
  exists_documentMessage h path.text fault.message

theorem message_of_not_isReported (h : fault.kind.isReported = false) :
    (LoadFault.document path fault).message = fault.message := by
  show documentMessage path.text fault.message fault.kind = fault.message
  cases hkind : fault.kind with
  | value | depth => rfl
  | _ =>
    rw [hkind] at h
    cases h

end LoadFault

namespace Disk

variable (d : Disk) (path : Path)

/-- The file, if it can be read, holds a text. -/
def HoldsText : Prop := ∀ bytes, d.read path = .ok bytes → ∃ content, Utf8.encode content = bytes

/-- What slips through when a document is read. -/
inductive Slips : DocumentFault → Prop where
  | nullCharacter (h : path.text.contains '\x00' = true) : Slips (.disk .nullCharacter)
  | undecodable {bytes : List UInt8} {fault : Utf8.Fault} (hread : d.read path = .ok bytes)
      (h : ∀ content, Utf8.encode content ≠ bytes) : Slips (.undecodable fault)
  | tooManyDigits {content : String} {count : Nat} (hread : d.read path = .ok (Utf8.encode content))
      (hcount : Numeral.maxDigits < count)
      (h : Json.HasDigits (Text.normalizeLineEndings content.toList) count) :
      Slips (.unreadable (Text.normalizeLineEndings content.toList) (.tooManyDigits count))
  | tooDeep {content : String} {shape : Shape} (hread : d.read path = .ok (Utf8.encode content))
      (h : d.nesting + 1 < Json.openings (Text.normalizeLineEndings content.toList)) :
      Slips (.unreadable (Text.normalizeLineEndings content.toList) (.tooDeep shape))

/-- The file holds a text in which the reader comes upon more arrays and objects inside each other than it has room
for; so many are opened in the text. -/
inductive TooDeepAt : DocumentFault → Prop where
  | intro {content : String} {shape : Shape} (hread : d.read path = .ok (Utf8.encode content))
      (hopened : d.nesting + 1 < Json.openings (Text.normalizeLineEndings content.toList))
      (hdeep : Json.read d.nesting (Text.normalizeLineEndings content.toList) = .error (.tooDeep shape)) :
      TooDeepAt (.unreadable (Text.normalizeLineEndings content.toList) (.tooDeep shape))

variable {d path}

theorem readDocument_of_undecodable {bytes : List UInt8} {fault : Utf8.Fault} (h : d.read path = .ok bytes)
    (hdecode : Utf8.decode bytes = .error fault) : d.readDocument path = .error (.undecodable fault) := by
  rw [readDocument_of_ok h, Json.ofBytes, hdecode]

theorem readDocument_of_decodable {bytes : List UInt8} {cs : List Char} (h : d.read path = .ok bytes)
    (hdecode : Utf8.decode bytes = .ok cs) : d.readDocument path =
      (Json.read d.nesting (Text.normalizeLineEndings cs)).mapError (.unreadable (Text.normalizeLineEndings cs)) := by
  rw [readDocument_of_ok h, Json.ofBytes, hdecode]

theorem readDocument_of_text {content : String} (h : d.read path = .ok (Utf8.encode content)) : d.readDocument path =
    (Json.read d.nesting (Text.normalizeLineEndings content.toList)).mapError
      (.unreadable (Text.normalizeLineEndings content.toList)) :=
  readDocument_of_decodable h (Utf8.decode_encode content)

theorem readDocument_depth_iff {fault : DocumentFault} :
    d.readDocument path = .error fault ∧ fault.kind = .depth ↔ d.TooDeepAt path fault := by
  constructor
  · rintro ⟨h, hkind⟩
    cases hread : d.read path with
    | error found =>
      obtain rfl := Except.error.inj ((readDocument_of_error hread).symm.trans h)
      cases found with
      | nullCharacter => cases hkind
      | blocked trouble blocked => cases trouble <;> cases hkind
    | ok bytes =>
      cases hdecode : Utf8.decode bytes with
      | error found =>
        obtain rfl := Except.error.inj ((readDocument_of_undecodable hread hdecode).symm.trans h)
        cases hkind
      | ok cs =>
        rw [← Utf8.encode_ofList_of_decode hdecode] at hread
        rw [readDocument_of_text hread] at h
        have hreads := Json.readsText d.nesting (Text.normalizeLineEndings (String.ofList cs).toList)
        cases hjson : Json.read d.nesting (Text.normalizeLineEndings (String.ofList cs).toList) with
        | ok j =>
          rw [hjson] at h
          cases h
        | error found =>
          rw [hjson] at h hreads
          obtain rfl := Except.error.inj h
          cases hreads with
          | tooDeep hopened => exact .intro hread hopened hjson
          | malformed => cases hkind
          | tooManyDigits => cases hkind
  · rintro ⟨hread, _, hdeep⟩
    rw [readDocument_of_text hread, hdeep]
    exact ⟨rfl, rfl⟩

theorem readable_of_readDocument {document : Json} (h : d.readDocument path = .ok document) :
    document.Readable (d.nesting + 1) := by
  cases hread : d.read path with
  | error fault => cases (readDocument_of_error hread).symm.trans h
  | ok bytes =>
    cases hdecode : Utf8.decode bytes with
    | error fault => cases (readDocument_of_undecodable hread hdecode).symm.trans h
    | ok cs =>
      rw [readDocument_of_decodable hread hdecode, Attempt.mapError_eq_ok] at h
      exact Json.readable_of_read h

/-- A file is read as a document, or its fault is reported, or a fault slips through. Only a file that holds a text is
read or reported. -/
theorem readDocument_outcomes (d : Disk) (path : Path) :
    (∃ document, d.readDocument path = .ok document ∧ d.HoldsText path) ∨
      (∃ fault, d.readDocument path = .error fault ∧ fault.kind.isReported = true ∧ d.HoldsText path) ∨
      ∃ fault, d.readDocument path = .error fault ∧ d.Slips path fault := by
  cases hread : d.read path with
  | error fault =>
    have hdocument := readDocument_of_error hread
    cases fault with
    | blocked trouble blocked =>
      right; left
      refine ⟨_, hdocument, by cases trouble <;> rfl, fun bytes hbytes => ?_⟩
      cases hread.symm.trans hbytes
    | nullCharacter => exact .inr (.inr ⟨_, hdocument, .nullCharacter (read_eq_nullCharacter.mp hread)⟩)
  | ok bytes =>
    cases hdecode : Utf8.decode bytes with
    | error fault =>
      have hnone := Utf8.exists_decode_eq_error_iff.mp ⟨fault, hdecode⟩
      exact .inr (.inr ⟨_, readDocument_of_undecodable hread hdecode, .undecodable hread hnone⟩)
    | ok cs =>
      have hcontent := Utf8.encode_ofList_of_decode hdecode
      have htext : d.HoldsText path := by
        intro other hother
        obtain rfl := Except.ok.inj (hread.symm.trans hother)
        exact ⟨_, hcontent⟩
      have hdocument := readDocument_of_decodable hread hdecode
      have hreads := Json.readsText d.nesting (Text.normalizeLineEndings cs)
      rw [← hcontent] at hread
      rw [← String.toList_ofList (l := cs)] at hdocument hreads
      generalize Json.read d.nesting _ = result at hdocument hreads
      cases hreads with
      | ok _ => exact .inl ⟨_, hdocument, htext⟩
      | malformed reason position => exact .inr (.inl ⟨_, hdocument, rfl, htext⟩)
      | tooManyDigits hcount hdigits => exact .inr (.inr ⟨_, hdocument, .tooManyDigits hread hcount hdigits⟩)
      | tooDeep hdeep => exact .inr (.inr ⟨_, hdocument, .tooDeep hread hdeep⟩)

-- The faults that are neither of the disk nor of how the text is formed.
example : ((Json.read 980 (List.replicate 4301 '7')).map fun _ => ()) = .error (.tooManyDigits 4301) := by
  decide +kernel

example : ((Json.read 1 "[[[0]]]".toList).map fun _ => ()) = .error (.tooDeep .array) := by
  decide +kernel

theorem loadAny_outcomes (d : Disk) (path : Path) :
    (∃ document, d.loadAny path = .ok document ∧ d.HoldsText path) ∨
      (∃ fault, d.loadAny path = .error (.document path fault) ∧ fault.kind.isReported = true ∧ d.HoldsText path) ∨
      ∃ fault, d.loadAny path = .error (.document path fault) ∧ d.Slips path fault := by
  unfold loadAny
  rcases d.readDocument_outcomes path with ⟨document, hread, htext⟩ | ⟨fault, hread, hreported, htext⟩ |
    ⟨fault, hread, hslips⟩
  · rw [hread]
    exact .inl ⟨document, rfl, htext⟩
  · rw [hread]
    exact .inr (.inl ⟨fault, rfl, hreported, htext⟩)
  · rw [hread]
    exact .inr (.inr ⟨fault, rfl, hslips⟩)

/-- A document of an expected shape is loaded, or a fault is reported, or one slips through that stopped the reading
of the document. -/
theorem load_outcomes (d : Disk) (path : Path) (expected : List Shape) :
    (∃ document, d.load path expected = .ok document ∧ d.readDocument path = .ok document ∧ d.HoldsText path) ∨
      (∃ fault, d.load path expected = .error fault ∧ fault.isReported = true ∧ d.HoldsText path) ∨
      ∃ fault, d.load path expected = .error (.document path fault) ∧ d.Slips path fault := by
  unfold load
  rcases d.readDocument_outcomes path with ⟨document, hread, htext⟩ | ⟨fault, hread, hreported, htext⟩ |
    ⟨fault, hread, hslips⟩
  · rw [hread]
    by_cases hfits : expected.any (·.fits document) = true
    · exact .inl ⟨document, if_pos hfits, rfl, htext⟩
    · exact .inr (.inl ⟨_, if_neg hfits, rfl, htext⟩)
  · rw [hread]
    exact .inr (.inl ⟨_, rfl, hreported, htext⟩)
  · rw [hread]
    exact .inr (.inr ⟨_, rfl, hslips⟩)

end Disk

/-! ## Building from a document -/

open Reading (StopsWith not_stops_bind not_stops_pure not_stops_expected)

section Refusals

variable {c : Complaint}

theorem not_stops_readEntries {α : Type} {entry : String → Json → Reading α}
    (hentry : ∀ key value, ¬ StopsWith c (entry key value)) (members : List (String × Json)) :
    ¬ StopsWith c (readEntries entry members) := by
  induction members with
  | nil => exact not_stops_pure _
  | cons first rest ih =>
    exact not_stops_bind (hentry _ _) fun _ => not_stops_bind ih fun _ => not_stops_pure _

variable (hc : c.isRefusal = false)

include hc

theorem not_stops_readCatalogue {α : Type} {list sort : String} {entry : String → Assoc Json → Reading α}
    (hentry : ∀ id members, ¬ StopsWith c (entry id members)) (read : Assoc α) (index : Nat) (items : List Json) :
    ¬ StopsWith c (readCatalogue list sort entry read index items) := by
  induction items generalizing read index with
  | nil => exact not_stops_pure _
  | cons item items ih =>
    refine not_stops_bind (Reading.not_stops_object hc _ _) fun members => ?_
    refine not_stops_bind (Reading.not_stops_string hc _ _) fun id => ?_
    split
    · intro h
      obtain rfl := Except.error.inj h
      cases hc
    · exact not_stops_bind (hentry _ _) fun first => ih _ _

theorem NameState.not_stops_read (place : String) (j : Json) : ¬ StopsWith c (NameState.read place j) := by
  refine not_stops_bind (Reading.not_stops_object hc _ _) fun members => ?_
  refine not_stops_bind (Reading.not_stops_optionalString hc _ _) fun label => ?_
  exact not_stops_bind (Reading.not_stops_optionalString hc _ _) fun condition => not_stops_pure _

theorem Character.not_stops_read (id : String) (j : Json) : ¬ StopsWith c (Character.read id j) := by
  refine not_stops_bind (Reading.not_stops_object hc _ _) fun members => ?_
  refine not_stops_bind (Reading.not_stops_optionalString hc _ _) fun name => ?_
  refine not_stops_bind (Reading.not_stops_optionalString hc _ _) fun portrait => ?_
  refine not_stops_bind (Reading.not_stops_optionalList hc _ _ (NameState.not_stops_read hc)) fun states => ?_
  exact not_stops_pure _

theorem Cast.not_stops_read (j : Json) : ¬ StopsWith c (Cast.read j) := by
  cases j with
  | object members => exact not_stops_readEntries (Character.not_stops_read hc) members
  | _ => exact not_stops_expected hc _ _

theorem FlagValue.not_stops_readDefault (id : String) (j : Json) : ¬ StopsWith c (FlagValue.readDefault id j) := by
  refine not_stops_bind (Reading.not_stops_object hc _ _) fun members => ?_
  split
  · exact not_stops_pure _
  · exact not_stops_expected hc _ _

theorem FlagValues.not_stops_readDefaults (j : Json) : ¬ StopsWith c (FlagValues.readDefaults j) := by
  cases j with
  | object members => exact not_stops_readEntries (FlagValue.not_stops_readDefault hc) members
  | _ => exact not_stops_expected hc _ _

theorem Item.not_stops_readAll (j : Json) : ¬ StopsWith c (Item.readAll j) := by
  cases j with
  | array items =>
    refine not_stops_readCatalogue hc (fun id members => ?_) [] 0 items
    refine not_stops_bind (Reading.not_stops_string hc _ _) fun name => ?_
    exact not_stops_bind (Reading.not_stops_optionalString hc _ _) fun description => not_stops_pure _
  | _ => exact not_stops_expected hc _ _

theorem Note.not_stops_readAll (j : Json) : ¬ StopsWith c (Note.readAll j) := by
  cases j with
  | array items =>
    refine not_stops_readCatalogue hc (fun id members => ?_) [] 0 items
    refine not_stops_bind (Reading.not_stops_string hc _ _) fun title => ?_
    exact not_stops_bind (Reading.not_stops_optionalString hc _ _) fun text => not_stops_pure _
  | _ => exact not_stops_expected hc _ _

end Refusals

namespace Reading

variable {α β : Type} {item : α → Reading β}

theorem exists_of_stops_mapM {c : Complaint} {items : List α} (h : StopsWith c (items.mapM item)) :
    ∃ a ∈ items, StopsWith c (item a) := by
  by_contra hnone
  induction items with
  | nil => exact not_stops_pure _ h
  | cons first rest ih =>
    rw [List.mapM_cons] at h
    obtain ⟨_, _, h⟩ := h.right fun hfirst => hnone ⟨first, List.mem_cons_self, hfirst⟩
    rcases Attempt.result_bind_eq_error.mp h with h | ⟨_, _, h⟩
    · exact ih h fun ⟨a, ha, hover⟩ => hnone ⟨a, List.mem_cons_of_mem _ ha, hover⟩
    · exact not_stops_pure _ h

theorem exists_of_mapM_eq_ok {items : List α} {bs : List β} (h : (items.mapM item).result = .ok bs) :
    ∀ a ∈ items, ∃ b, (item a).result = .ok b := by
  induction items generalizing bs with
  | nil => exact fun a ha => absurd ha List.not_mem_nil
  | cons first rest ih =>
    rw [List.mapM_cons] at h
    obtain ⟨b, hb, h⟩ := Attempt.result_bind_eq_ok.mp h
    obtain ⟨others, hothers, _⟩ := Attempt.result_bind_eq_ok.mp h
    intro a ha
    rcases List.mem_cons.mp ha with rfl | ha
    · exact ⟨b, hb⟩
    · exact ih hothers a ha

end Reading

/-- A story with a volume that is too large, in the initial ambience or in one of its nodes. -/
inductive Graph.Oversize : Json → Prop where
  | ambience {members : Assoc Json} (h : Cue.Oversize (Reading.field members "initialAmbience")) :
      Graph.Oversize (.object members)
  | node {members : Assoc Json} {items : List Json} {item : Json}
      (hitems : Reading.field members "nodes" = .array items) (hitem : item ∈ items) (h : Node.Oversize item) :
      Graph.Oversize (.object members)
  | listed {items : List Json} {item : Json} (hitem : item ∈ items) (h : Node.Oversize item) :
      Graph.Oversize (.array items)

namespace Graph

theorem exists_of_stops_nodes {c : Complaint} (hc : c.isRefusal = false) {j : Json}
    (h : StopsWith c (nodesBy Node.read j)) :
    c = .volumeTooLarge ∧ ∃ items item, j = .array items ∧ item ∈ items ∧ Node.Oversize item := by
  cases j with
  | array items =>
    obtain ⟨entry, hentry, hstops⟩ := Reading.exists_of_stops_mapM h
    obtain ⟨hvolume, hover⟩ := Node.oversize_of_stops hc hstops
    exact ⟨hvolume, items, entry.1, rfl, List.fst_mem_of_mem_zipIdx hentry, hover⟩
  | _ => exact absurd h (not_stops_expected hc _ _)

theorem not_oversize_of_nodes_eq_ok {items : List Json} {nodes : List Node}
    (h : (nodesBy Node.read (.array items)).result = .ok nodes) : ∀ item ∈ items, ¬ Node.Oversize item := by
  intro item hitem hover
  rw [← List.zipIdx_map_fst 0 items] at hitem
  obtain ⟨entry, hentry, rfl⟩ := List.mem_map.mp hitem
  obtain ⟨node, hnode⟩ := Reading.exists_of_mapM_eq_ok h entry hentry
  exact hover.not_read _ node hnode

theorem oversize_of_stops_read {c : Complaint} (hc : c.isRefusal = false) {j : Json}
    (h : StopsWith c (read j)) : c = .volumeTooLarge ∧ Oversize j := by
  have hlist : StopsWith c (nodesBy Node.read j >>= fun nodes => (pure { nodes } : Reading Graph)) →
      c = .volumeTooLarge ∧ Oversize j := by
    intro h
    rcases Attempt.result_bind_eq_error.mp h with h | ⟨_, _, h⟩
    · obtain ⟨hvolume, items, item, rfl, hitem, hover⟩ := exists_of_stops_nodes hc h
      exact ⟨hvolume, .listed hitem hover⟩
    · exact absurd h (not_stops_pure _)
  cases j with
  | object members =>
    rcases Attempt.result_bind_eq_error.mp h with h | ⟨_, _, h⟩
    · obtain ⟨hvolume, hover⟩ := Reading.oversize_of_stops_cue hc h
      exact ⟨hvolume, .ambience hover⟩
    rcases Attempt.result_bind_eq_error.mp h with h | ⟨_, _, h⟩
    · obtain ⟨hvolume, items, item, hitems, hitem, hover⟩ := exists_of_stops_nodes hc h
      exact ⟨hvolume, .node (Reading.field_of_getD hitems hitem) hitem hover⟩
    · exact absurd h (not_stops_pure _)
  | _ => exact hlist h

theorem not_oversize_of_read_eq_ok {j : Json} {g : Graph} (h : (read j).result = .ok g) : ¬ Oversize j := by
  intro hover
  cases hover with
  | ambience hcue =>
    obtain ⟨_, hambience, _⟩ := Attempt.result_bind_eq_ok.mp h
    exact Reading.not_oversize_of_cue_eq_ok hambience hcue
  | @node members _ _ hitems hitem hnode =>
    obtain ⟨_, _, h⟩ := Attempt.result_bind_eq_ok.mp h
    obtain ⟨_, hnodes, _⟩ := Attempt.result_bind_eq_ok.mp h
    cases hget : Assoc.get? members "nodes" with
    | none => simp [Reading.field, hget] at hitems
    | some nodes =>
      rw [Reading.field, hget] at hitems
      rw [hget, show nodes = _ from hitems] at hnodes
      exact not_oversize_of_nodes_eq_ok hnodes _ hitem hnode
  | listed hitem hnode =>
    obtain ⟨_, hnodes, _⟩ := Attempt.result_bind_eq_ok.mp h
    exact not_oversize_of_nodes_eq_ok hnodes _ hitem hnode

theorem of_stops_readWithin {room : Nat} {c : Complaint} (hc : c.isRefusal = false) {j : Json}
    (h : StopsWith c (readWithin room j)) :
    c = .volumeTooLarge ∧ Oversize j ∨ c = .tooDeep ∧ ¬ j.NestsWithin (2 * room) := by
  rcases readWithin_isUnless room j with hsame | ⟨hstops, hdeep⟩
  · rw [hsame] at h
    exact .inl (oversize_of_stops_read hc h)
  · exact .inr ⟨Except.error.inj (h.symm.trans hstops), hdeep.not_nestsWithin⟩

theorem not_oversize_of_readWithin_eq_ok {room : Nat} {j : Json} {g : Graph}
    (h : (readWithin room j).result = .ok g) : ¬ Oversize j := by
  rcases readWithin_isUnless room j with hsame | ⟨hstops, _⟩
  · rw [hsame] at h
    exact not_oversize_of_read_eq_ok h
  · cases hstops.symm.trans h

example : ((read (.array [.object [("id", .string "hall"), ("type", .string "singleParagraph"),
    ("playSFX", .object [("id", .string "bell"), ("volume", .int (Nat.pow 10 309))])]])).result.map fun _ => ()) =
      .error .volumeTooLarge := by
  decide +kernel

end Graph

/-! ## Loading from a source -/

namespace Source

variable {α β : Type}

/-- How loading from a source may end, where `Oversize` says which documents hold a volume that is too large, and
`Nested` which ones leave too little room. It gives what the document is built into; or a fault is reported; or a
fault slips through while the document is read; or building stops at such a volume or for want of room. Only a file
that holds a text does not slip through. -/
def Ends (s : Source α β) (Oversize : Json → Prop) (Nested : Nat → Json → Prop) (directory : Path) (d : Disk) :
    Prop :=
  let path := directory.file s.name
  (∃ a document, (s.load directory d).result = .ok a ∧ d.readDocument path = .ok document ∧
      d.HoldsText path ∧ ¬ Oversize document) ∨
    (∃ fault, (s.load directory d).result = .error fault ∧ fault.isReported = true ∧ d.HoldsText path) ∨
    (∃ fault, (s.load directory d).result = .error (.load (.document path fault)) ∧ d.Slips path fault) ∨
    ((s.load directory d).result = .error (.complaint .volumeTooLarge) ∧
      ∃ document, d.readDocument path = .ok document ∧ d.HoldsText path ∧ Oversize document) ∨
    ((s.load directory d).result = .error (.complaint .tooDeep) ∧
      ∃ document, d.readDocument path = .ok document ∧ d.HoldsText path ∧ Nested d.room document)

variable {s : Source α β} {directory : Path} {d : Disk}

theorem load_of_ok {document : Json} (h : d.load (directory.file s.name) s.shapes = .ok document) :
    (s.load directory d).result = (s.build d.room document).result.mapError .complaint := by
  rw [load, h]
  exact Attempt.result_bind _ _

theorem load_of_error {fault : LoadFault} (h : d.load (directory.file s.name) s.shapes = .error fault) :
    (s.load directory d).result = .error (.load fault) := by
  rw [load, h]
  exact Attempt.result_bind _ _

theorem ends {Oversize : Json → Prop} {Nested : Nat → Json → Prop}
    (hstops : ∀ {room c} j, c.isRefusal = false → StopsWith c (s.build room j) →
      c = .volumeTooLarge ∧ Oversize j ∨ c = .tooDeep ∧ Nested room j)
    (hok : ∀ {room} j a, (s.build room j).result = .ok a → ¬ Oversize j) : s.Ends Oversize Nested directory d := by
  rcases d.load_outcomes (directory.file s.name) s.shapes with ⟨document, hload, hread, htext⟩ |
    ⟨fault, hload, hreported, htext⟩ | ⟨fault, hload, hslips⟩
  · have hresult := load_of_ok hload
    cases hbuild : (s.build d.room document).result with
    | ok a =>
      rw [hbuild] at hresult
      exact .inl ⟨a, document, hresult, hread, htext, hok document a hbuild⟩
    | error complaint =>
      rw [hbuild] at hresult
      cases hreported : complaint.isRefusal with
      | true => exact .inr (.inl ⟨_, hresult, hreported, htext⟩)
      | false =>
        rcases hstops document hreported hbuild with ⟨rfl, hover⟩ | ⟨rfl, hnested⟩
        · exact .inr (.inr (.inr (.inl ⟨hresult, document, hread, htext, hover⟩)))
        · exact .inr (.inr (.inr (.inr ⟨hresult, document, hread, htext, hnested⟩)))
  · exact .inr (.inl ⟨_, load_of_error hload, hreported, htext⟩)
  · exact .inr (.inr (.inl ⟨fault, load_of_error hload, hslips⟩))

/-- Nothing slips through building what never stops but with a complaint of its document. -/
theorem ends_of_not_stops (hstops : ∀ {room c} j, c.isRefusal = false → ¬ StopsWith c (s.build room j)) :
    s.Ends (fun _ => False) (fun _ _ => False) directory d :=
  ends (fun j hc h => absurd h (hstops j hc)) fun _ _ _ => not_false

/-- Whatever is on a disk, loading a file, or each of the documents from a directory, gives an answer, or reports a
fault, or lets through one of the faults that are named here. Only a story can stop at a volume that is too large, and
only one that holds such a volume, or for want of room, and only one that nests deeper; a document with such a volume
is never loaded. A file that holds no text is neither loaded nor reported. -/
theorem load_ends (d : Disk) :
    (∀ path, (∃ document, d.loadAny path = .ok document ∧ d.HoldsText path) ∨
      (∃ fault, d.loadAny path = .error (.document path fault) ∧ fault.kind.isReported = true ∧ d.HoldsText path) ∨
      ∃ fault, d.loadAny path = .error (.document path fault) ∧ d.Slips path fault) ∧
    ∀ directory, characters.Ends (fun _ => False) (fun _ _ => False) directory d ∧
      flags.Ends (fun _ => False) (fun _ _ => False) directory d ∧
      items.Ends (fun _ => False) (fun _ _ => False) directory d ∧
      notes.Ends (fun _ => False) (fun _ _ => False) directory d ∧
      story.Ends Graph.Oversize (fun room document => ¬ document.NestsWithin (2 * room)) directory d := by
  refine ⟨d.loadAny_outcomes, fun directory => ⟨?_, ?_, ?_, ?_, ?_⟩⟩
  · exact ends_of_not_stops fun j hc => Cast.not_stops_read hc j
  · exact ends_of_not_stops fun j hc => FlagValues.not_stops_readDefaults hc j
  · exact ends_of_not_stops fun j hc => Item.not_stops_readAll hc j
  · exact ends_of_not_stops fun j hc => Note.not_stops_readAll hc j
  · exact ends (fun _ hc h => Graph.of_stops_readWithin hc h) fun _ _ => Graph.not_oversize_of_readWithin_eq_ok

theorem load_of_undecodable {bytes : List UInt8} {fault : Utf8.Fault}
    (hread : d.read (directory.file s.name) = .ok bytes) (hdecode : Utf8.decode bytes = .error fault) :
    (s.load directory d).result = .error (.load (.document (directory.file s.name) (.undecodable fault))) := by
  refine load_of_error ?_
  rw [Disk.load, Disk.readDocument_of_undecodable hread hdecode]
  rfl

def diskWith (name : String) (bytes : List UInt8) : Disk := { entries := [(#[name], .file bytes)] }

def documentNames : List String := [characters.name, flags.name, items.name, notes.name, story.name]

theorem isPlain_of_mem {name : String} (h : name ∈ documentNames) :
    Path.file {} name = { parts := [name] } ∧ Disk.IsPlain name := by
  have hcomputed : ∀ name ∈ documentNames, Path.file {} name = { parts := [name] } ∧
      ({ parts := [name] } : Path).text = name ∧ ¬ Disk.maxPathBytes < name.utf8ByteSize ∧
      ¬ Disk.maxPartBytes < name.utf8ByteSize ∧ Location.go #[] name = #[name] := by
    decide +kernel
  obtain ⟨hpath, htext, hshort, hpart, hgo⟩ := hcomputed name h
  refine ⟨hpath, htext, ?_, hshort, hpart, hgo⟩
  simp only [documentNames, List.mem_cons, List.not_mem_nil, or_false] at h
  rcases h with rfl | rfl | rfl | rfl | rfl <;> simp [characters, flags, items, notes, story]

theorem read_of_entry {name : String} {bytes : List UInt8} (h : name ∈ documentNames)
    (hentry : d.entry? #[name] = some (.file bytes)) : d.read (Path.file {} name) = .ok bytes := by
  obtain ⟨hpath, hplain⟩ := isPlain_of_mem h
  rw [hpath]
  exact Disk.read_eq_ok.mpr ⟨#[name], hplain.resolve d, hentry⟩

theorem read_diskWith {name : String} (h : name ∈ documentNames) (bytes : List UInt8) :
    (diskWith name bytes).read (Path.file {} name) = .ok bytes := by
  refine read_of_entry h ?_
  simp only [documentNames, List.mem_cons, List.not_mem_nil, or_false] at h
  rcases h with rfl | rfl | rfl | rfl | rfl <;> rfl

/-- Whatever is on a disk, what cannot be loaded from the source is reported. -/
def Reports (s : Source α β) : Prop := ∀ (directory : Path) (d : Disk),
  (∃ a, (s.load directory d).result = .ok a) ∨
    ∃ fault, (s.load directory d).result = .error fault ∧ fault.isReported = true

/-- No character begins with this byte. -/
theorem decode_invalidByte : Utf8.decode [0xff] = .error ⟨0, 0xff, 1, .startByte⟩ := by
  rfl

theorem not_reports_of_mem (h : s.name ∈ documentNames) : ¬ s.Reports := by
  intro hreports
  have hload := s.load_of_undecodable (read_diskWith h [0xff]) decode_invalidByte
  rcases hreports {} (diskWith s.name [0xff]) with ⟨a, hok⟩ | ⟨fault, herror, hreported⟩
  · cases hload.symm.trans hok
  · cases hload.symm.trans herror
    cases hreported

/-- Neither a file nor any of the documents is always reported when it cannot be loaded. -/
theorem not_reports :
    (¬ ∀ (d : Disk) (path : Path), (∃ document, d.loadAny path = .ok document) ∨
      ∃ fault, d.loadAny path = .error fault ∧ fault.isReported = true) ∧
    ¬ characters.Reports ∧ ¬ flags.Reports ∧ ¬ items.Reports ∧ ¬ notes.Reports ∧ ¬ story.Reports := by
  refine ⟨fun hall => ?_, not_reports_of_mem ?_, not_reports_of_mem ?_, not_reports_of_mem ?_,
    not_reports_of_mem ?_, not_reports_of_mem ?_⟩
  · have hload : (diskWith story.name [0xff]).loadAny (Path.file {} story.name) =
        .error (.document (Path.file {} story.name) (.undecodable ⟨0, 0xff, 1, .startByte⟩)) := by
      rw [Disk.loadAny, Disk.readDocument_of_undecodable (read_diskWith (by decide) _) decode_invalidByte]
      rfl
    rcases hall (diskWith story.name [0xff]) (Path.file {} story.name) with
      ⟨document, hok⟩ | ⟨fault, herror, hreported⟩
    · cases hload.symm.trans hok
    · cases hload.symm.trans herror
      cases hreported
  all_goals decide

end Source

end BranchingStory
