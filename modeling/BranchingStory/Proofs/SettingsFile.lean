import BranchingStory.Console.Settings
import BranchingStory.Proofs.LoadFaults

/-!
# The settings file

What the settings file holds is loaded as settings: what cannot be read, decoded or parsed, and what is no object,
counts as an empty file, and a member that names no allowed value counts as missing. Only a text with too many arrays
and objects inside each other is not passed over. Settings that were saved are read back as they were normalised, and
saving what was loaded writes the same text once more.
-/

namespace BranchingStory

/-! ## What a member names -/

namespace Level

/-- A text in capitals, as far as it can name a level: no other character has a capital form that consists of
letters in the names. -/
def capitals (text : String) : String := String.ofList (text.toList.map capital)

theorem mem_all (l : Level) : l ∈ all := by
  cases l <;> decide

theorem name_injective {a b : Level} (h : a.name = b.name) : a = b := by
  cases a <;> cases b <;> first | rfl | exact absurd h (by decide)

theorem ofText_eq_iff {text : String} {l : Level} :
    ofText text = l ↔ capitals text = l.name ∨ l = .warning ∧ ∀ other : Level, capitals text ≠ other.name := by
  have hofText : ofText text = (all.find? fun level => level.name = capitals text).getD .warning := rfl
  rw [hofText]
  cases hfind : all.find? fun level => level.name = capitals text with
  | some found =>
    have hfound : found.name = capitals text := by simpa using List.find?_some hfind
    rw [Option.getD_some, ← hfound]
    constructor
    · rintro rfl
      exact .inl rfl
    · rintro (hname | ⟨_, hnone⟩)
      · exact name_injective hname
      · exact absurd rfl (hnone found)
  | none =>
    have hnone : ∀ other : Level, capitals text ≠ other.name := by
      intro other hother
      have hmiss := List.find?_eq_none.mp hfind other (mem_all other)
      exact hmiss (by simpa using hother.symm)
    rw [Option.getD_none]
    constructor
    · rintro rfl
      exact .inr ⟨rfl, hnone⟩
    · rintro (hname | ⟨rfl, _⟩)
      · exact absurd hname (hnone l)
      · rfl

end Level

/-! ## What a file says -/

namespace Settings

/-- The settings that the members of an object name. -/
structure NamedBy (members : Assoc Json) (s : Settings) : Prop where
  textMode : s.textMode = .step ↔ Assoc.get? members textModeKey = some (.string "step")
  logLevel : (∃ text, Assoc.get? members logLevelKey = some (.string text) ∧ Level.capitals text = s.logLevel.name) ∨
    s.logLevel = .warning ∧ ∀ text, Assoc.get? members logLevelKey = some (.string text) →
      ∀ other : Level, Level.capitals text ≠ other.name

/-- What a file says: nothing, unless it holds an object. -/
inductive SaidBy (d : Disk) (path : Path) : Settings → Prop where
  | unread {fault : DiskFault} (h : d.read path = .error fault) : SaidBy d path {}
  | noText {bytes : List UInt8} (h : d.read path = .ok bytes) (hnot : ∀ text, Utf8.encode text ≠ bytes) :
      SaidBy d path {}
  | noDocument {text : String} {fault : Json.Fault} (h : d.read path = .ok (Utf8.encode text))
      (hread : Json.read d.nesting (Text.normalizeLineEndings text.toList) = .error fault)
      (hnot : ∀ shape, fault ≠ .tooDeep shape) : SaidBy d path {}
  | noObject {text : String} {j : Json} (h : d.read path = .ok (Utf8.encode text))
      (hread : Json.read d.nesting (Text.normalizeLineEndings text.toList) = .ok j)
      (hnot : ∀ members, j ≠ .object members) : SaidBy d path {}
  | object {text : String} {members : Assoc Json} {s : Settings} (h : d.read path = .ok (Utf8.encode text))
      (hread : Json.read d.nesting (Text.normalizeLineEndings text.toList) = .ok (.object members))
      (hnamed : NamedBy members s) : SaidBy d path s

theorem ofJson_object_namedBy (members : Assoc Json) : NamedBy members (ofJson (.object members)) := by
  constructor
  · show TextMode.ofJson ((Assoc.get? members textModeKey).getD .null) = .step ↔ _
    cases Assoc.get? members textModeKey with
    | none => simp [TextMode.ofJson]
    | some j =>
      cases j with
      | string text => by_cases h : text = "step" <;> simp [TextMode.ofJson, TextMode.name, h]
      | _ => simp [TextMode.ofJson]
  · have hlevel : (ofJson (.object members)).logLevel =
        Level.ofJson ((Assoc.get? members logLevelKey).getD .null) := rfl
    rw [hlevel]
    cases Assoc.get? members logLevelKey with
    | none => exact .inr ⟨rfl, by simp⟩
    | some j =>
      cases j with
      | string text =>
        rcases Level.ofText_eq_iff.mp (rfl : Level.ofText text = Level.ofText text) with hname | ⟨hwarning, hnone⟩
        · exact .inl ⟨text, rfl, hname⟩
        · refine .inr ⟨hwarning, fun other hother => ?_⟩
          cases hother
          exact hnone
      | _ => exact .inr ⟨rfl, by simp⟩

theorem NamedBy.unique {members : Assoc Json} {s t : Settings} (hs : NamedBy members s) (ht : NamedBy members t) :
    s = t := by
  obtain ⟨mode, level⟩ := s
  obtain ⟨mode', level'⟩ := t
  have hmode : mode = mode' := by
    have hiff := hs.textMode.trans ht.textMode.symm
    cases mode <;> cases mode' <;> simp_all
  have hlevel : level = level' := by
    rcases hs.logLevel with ⟨text, htext, hname⟩ | ⟨hwarning, hnone⟩
    · rcases ht.logLevel with ⟨other, hother, hname'⟩ | ⟨_, hnone'⟩
      · obtain rfl := Json.string.inj (Option.some.inj (htext.symm.trans hother))
        exact Level.name_injective (hname.symm.trans hname')
      · exact absurd hname (hnone' text htext level)
    · rcases ht.logLevel with ⟨other, hother, hname'⟩ | ⟨hwarning', _⟩
      · exact absurd hname' (hnone other hother level')
      · exact hwarning.trans hwarning'.symm
  rw [hmode, hlevel]

theorem ofJson_of_not_object {j : Json} (h : ∀ members, j ≠ .object members) : ofJson j = {} := by
  cases j with
  | object members => exact absurd rfl (h members)
  | _ => rfl

variable {s : Settings} {path : Path} {d d' : Disk} {l : Location}

theorem load_of_document {j : Json} (h : d.readDocument path = .ok j) : load path d = .ok (ofJson j) := by
  rw [load, h]

/-- The faults that are not passed over are those of documents that nest too deep. -/
theorem load_of_fault {fault : DocumentFault} (h : d.readDocument path = .error fault) :
    load path d = if fault.kind = .depth then .error fault else .ok {} := by
  rw [load, h]
  dsimp only
  cases fault.kind <;> rfl

theorem load_eq_error {fault : DocumentFault} : load path d = .error fault ↔ d.TooDeepAt path fault := by
  rw [← Disk.readDocument_depth_iff]
  cases hdocument : d.readDocument path with
  | ok j => simp [load_of_document hdocument]
  | error found =>
    rw [load_of_fault hdocument]
    by_cases hdepth : found.kind = .depth
    · rw [if_pos hdepth]
      constructor
      · intro h
        obtain rfl := Except.error.inj h
        exact ⟨rfl, hdepth⟩
      · rintro ⟨h, _⟩
        exact congrArg Except.error (Except.error.inj h)
    · rw [if_neg hdepth]
      refine iff_of_false (by simp) ?_
      rintro ⟨h, hkind⟩
      exact hdepth (Except.error.inj h ▸ hkind)

theorem SaidBy.load (h : SaidBy d path s) : load path d = .ok s := by
  cases h with
  | @unread fault h =>
    rw [load_of_fault (Disk.readDocument_of_error h)]
    cases fault with
    | nullCharacter => rfl
    | blocked trouble blocked => cases trouble <;> rfl
  | noText h hnot =>
    obtain ⟨fault, hfault⟩ := Utf8.exists_decode_eq_error_iff.mpr hnot
    exact load_of_fault (Disk.readDocument_of_undecodable h hfault)
  | @noDocument text fault h hread hnot =>
    have hdocument := Disk.readDocument_of_text h
    rw [hread] at hdocument
    rw [load_of_fault hdocument]
    cases fault with
    | malformed => rfl
    | tooManyDigits => rfl
    | tooDeep shape => exact absurd rfl (hnot shape)
  | noObject h hread hnot =>
    have hdocument := Disk.readDocument_of_text h
    rw [hread] at hdocument
    exact (load_of_document hdocument).trans (congrArg Except.ok (ofJson_of_not_object hnot))
  | object h hread hnamed =>
    have hdocument := Disk.readDocument_of_text h
    rw [hread] at hdocument
    exact (load_of_document hdocument).trans (congrArg Except.ok ((ofJson_object_namedBy _).unique hnamed))

/-- A file says something, unless its text nests too deep. -/
theorem exists_saidBy (h : ∀ fault, ¬ d.TooDeepAt path fault) : ∃ s, SaidBy d path s := by
  cases hread : d.read path with
  | error fault => exact ⟨_, .unread hread⟩
  | ok bytes =>
    by_cases hnot : ∀ text, Utf8.encode text ≠ bytes
    · exact ⟨_, .noText hread hnot⟩
    obtain ⟨text, rfl⟩ := not_forall_not.mp hnot
    have hdocument := Disk.readDocument_of_text hread
    cases hjson : Json.read d.nesting (Text.normalizeLineEndings text.toList) with
    | ok j =>
      by_cases hobject : ∃ members, j = .object members
      · obtain ⟨members, rfl⟩ := hobject
        exact ⟨_, .object hread hjson (ofJson_object_namedBy members)⟩
      · exact ⟨_, .noObject hread hjson (not_exists.mp hobject)⟩
    | error fault =>
      refine ⟨_, .noDocument hread hjson ?_⟩
      rintro shape rfl
      rw [hjson] at hdocument
      exact h _ (Disk.readDocument_depth_iff.mp ⟨hdocument, rfl⟩)

/-- The settings that are loaded are the ones that the file says, and no others. -/
theorem load_eq_ok : load path d = .ok s ↔ SaidBy d path s := by
  refine ⟨fun hload => ?_, SaidBy.load⟩
  have hshallow : ∀ fault, ¬ d.TooDeepAt path fault := by
    intro fault hdeep
    cases (load_eq_error.mpr hdeep).symm.trans hload
  obtain ⟨t, ht⟩ := exists_saidBy hshallow
  cases ht.load.symm.trans hload
  exact ht

/-! ## What is saved -/

def page (s : Settings) : String := s.toJson.page

theorem ofJson_reread (nesting : Nat) (s : Settings) :
    ∃ j, Json.ofBytes nesting (Utf8.encode s.page) = .ok j ∧ ofJson j = s := by
  refine ⟨s.toJson.sortedMembers, ?_, ?_⟩
  · rw [Json.ofBytes, Utf8.decode_encode]
    obtain ⟨mode, level⟩ := s
    cases mode <;> cases level <;> rfl
  · obtain ⟨mode, level⟩ := s
    cases mode <;> cases level <;> decide

/-- The settings are in a file whose directory is there. -/
def KeptAt (s : Settings) (path : Path) (d : Disk) (l : Location) : Prop :=
  d.isDirectory path.parent = true ∧ d.resolve path = .ok l ∧ d.entry? l = some (.file (Utf8.encode s.page))

theorem KeptAt.read (h : s.KeptAt path d l) : d.read path = .ok (Utf8.encode s.page) :=
  Disk.read_eq_ok.mpr ⟨l, h.2.1, h.2.2⟩

theorem KeptAt.load (h : s.KeptAt path d l) : load path d = .ok s := by
  obtain ⟨j, hj, rfl⟩ := s.ofJson_reread d.nesting
  rw [Settings.load, Disk.readDocument_of_ok h.read, hj]

theorem keptAt_of_save (h : s.save path d = .ok d') : ∃ l, s.KeptAt path d' l := by
  unfold Settings.save DirsMade.toExcept at h
  cases hfault : (d.makeDirs path.parent).fault with
  | some fault =>
    rw [hfault] at h
    cases h
  | none =>
    rw [hfault] at h
    obtain ⟨l, hresolve, hfile, rfl⟩ := Disk.write_eq_ok.mp h
    have hkeeps := Disk.keepsDirectories_put hfile (.file (Utf8.encode s.page))
    refine ⟨l, hkeeps.isDirectory (Disk.isDirectory_makeDirs hfault), hkeeps.resolve hresolve, ?_⟩
    exact (Disk.entry?_put hfile _ l).trans (if_pos rfl)

theorem KeptAt.save (h : s.KeptAt path d l) (t : Settings) :
    t.save path d = .ok (d.put l (.file (Utf8.encode t.page))) := by
  obtain ⟨hparent, hresolve, hfile⟩ := h
  rw [Settings.save, Disk.makeDirs_of_isDirectory hparent]
  exact Disk.write_eq_ok.mpr ⟨l, hresolve, by simp [hfile], rfl⟩

/-- A settings file stops the program only if its text nests too deep; all else is passed over, and the settings that
the file says are loaded. They have one of the two modes and one of the four levels. When settings were saved, exactly
what they name is loaded, and saving it writes the same text once more. -/
theorem load_unless_tooDeep_and_reread (path : Path) :
    (∀ d, (∀ s, load path d = .ok s ↔ SaidBy d path s) ∧
      ∀ fault, load path d = .error fault ↔ d.TooDeepAt path fault) ∧
    (∀ s : Settings, ∃ mode ∈ ["instant", "step"], ∃ level ∈ ["DEBUG", "INFO", "WARNING", "ERROR"],
      s.toJson = .object [("text_display_mode", .string mode), ("log_level", .string level)]) ∧
    ∀ members d d', (ofJson (.object members)).save path d = .ok d' → ∃ s, load path d' = .ok s ∧
      NamedBy members s ∧ s = ofJson (.object members) ∧
      ∃ text again, d'.read path = .ok (Utf8.encode text) ∧
        (ofJson s.toJson).save path d' = .ok again ∧ again.read path = .ok (Utf8.encode text) := by
  refine ⟨fun d => ⟨fun s => load_eq_ok, fun fault => load_eq_error⟩, ?_, ?_⟩
  · rintro ⟨mode, level⟩
    refine ⟨mode.name, ?_, level.name, ?_, rfl⟩
    · cases mode <;> decide
    · cases level <;> decide
  · intro members d d' hsave
    obtain ⟨l, hkept⟩ := keptAt_of_save hsave
    have hagain := hkept.save (ofJson (.object members))
    obtain ⟨_, hlater⟩ := keptAt_of_save hagain
    refine ⟨_, hkept.load, ofJson_object_namedBy members, rfl, _, _, hkept.read, ?_, hlater.read⟩
    rw [ofJson_toJson]
    exact hagain

/-- Settings with a level in mixed letters, one of them without its dot, a mode that nobody knows and a member too
many. -/
def looseMembers : Assoc Json :=
  [("text_display_mode", .string "Step"), ("volume", .int 3), ("log_level", .string "\u0131nFo")]

theorem isPlain_config : Disk.IsPlain "config.json" := by
  refine ⟨?text, ?plain, ?short, ?part, ?go⟩
  case plain => simp
  all_goals decide +kernel

theorem looseMembers_reread : ∃ d', (ofJson (.object looseMembers)).save { parts := ["config.json"] } {} = .ok d' ∧
    load { parts := ["config.json"] } d' = .ok { logLevel := .info } := by
  have hsave : (ofJson (.object looseMembers)).save { parts := ["config.json"] } {} =
      .ok (Disk.put {} #["config.json"] (.file (Utf8.encode (ofJson (.object looseMembers)).page))) := by
    have hparent : Path.parent { parts := ["config.json"] } = {} := rfl
    rw [Settings.save, hparent, Disk.makeDirs_here]
    exact Disk.write_eq_ok.mpr ⟨_, isPlain_config.resolve {}, by decide, rfl⟩
  obtain ⟨s, hload, _, rfl, _⟩ := (load_unless_tooDeep_and_reread _).2.2 looseMembers {} _ hsave
  exact ⟨_, hsave, hload⟩

theorem load_of_brackets {count : Nat} (h : d.read path = .ok (Utf8.encode (String.ofList (List.replicate count '['))))
    (hcount : d.nesting + 1 < count) :
    load path d = .error (.unreadable (List.replicate count '[') (.tooDeep .array)) := by
  have htext : Text.normalizeLineEndings (List.replicate count '[') = List.replicate count '[' :=
    Text.normalizeLineEndings_of_not_mem fun hmem => absurd (List.eq_of_mem_replicate hmem) (by decide)
  have hdocument := Disk.readDocument_of_text h
  rw [String.toList_ofList, htext, Json.read_brackets hcount] at hdocument
  exact load_of_fault hdocument

def bracketDisk : Disk :=
  { entries := [(#["config.json"], .file (Utf8.encode (String.ofList (List.replicate 100000 '['))))] }

/-- Such a file stops the program. -/
theorem bracketDisk_stops_load :
    load { parts := ["config.json"] } bracketDisk =
      .error (.unreadable (List.replicate 100000 '[') (.tooDeep .array)) := by
  have hfile : bracketDisk.read { parts := ["config.json"] } =
      .ok (Utf8.encode (String.ofList (List.replicate 100000 '['))) :=
    Disk.read_eq_ok.mpr ⟨_, isPlain_config.resolve bracketDisk, rfl⟩
  exact load_of_brackets hfile (by decide)

end Settings
end BranchingStory
