import BranchingStory.Proofs.Checkpoint
import BranchingStory.Proofs.DiskChanges

/-!
# What is refused changes nothing

A session changes in one place only once nothing can go wrong any more: a snapshot is read before the
history is replaced, a choice is looked up before it is carried out, and a save is read as a whole before its
story is taken over. That the checks at the end of those operations never find anything is what makes this
true of them; a play that has taken over a history, or carried out a choice, is consistent whatever it was
before. After a load that succeeds, everything the save has a section for is what that section says.
-/

namespace BranchingStory

/-- Nothing happens but that a notice is told: no sound is played, and nobody hears of a beginning. -/
def Event.isNotice : Event → Bool
  | .notice _ => true
  | _ => false

theorem isNotice_of_mem_noticeEvents {notices : List Notice} :
    ∀ event ∈ noticeEvents notices, event.isNotice = true := by
  intro event hevent
  obtain ⟨notice, _, rfl⟩ := List.mem_map.mp hevent
  rfl

namespace Play

variable {p : Play}

/-- A turn leaves a play as it was. -/
structure Spares (p : Play) (turn : Turn) : Prop where
  play : turn.play = p
  events : ∀ event ∈ turn.events, event.isNotice = true

theorem spares_restore {snapshot : Json} {fault : PlayFault}
    (hfault : (p.restore snapshot).fault = some fault) : p.Spares (p.restore snapshot) := by
  cases hread : (History.ofSnapshot p.script.graph p.script.bound snapshot).result with
  | error _ =>
    rw [restore, restoreFrom_of_error hread]
    exact ⟨rfl, isNotice_of_mem_noticeEvents⟩
  | ok history => exact absurd ((restore_of_ok hread).1.symm.trans hfault) (Option.some_ne_none fault).symm

theorem spares_chooseIndex {index : Int} {fault : PlayFault}
    (hfault : (p.chooseIndex index).fault = some fault) : p.Spares (p.chooseIndex index) := by
  cases hchoice : p.choiceAt index with
  | some choice =>
    rw [chooseIndex_of_some hchoice, choose_fault] at hfault
    exact absurd hfault (Option.some_ne_none fault).symm
  | none =>
    obtain ⟨_, hrefuse, _⟩ := chooseIndex_of_none hchoice
    rw [hrefuse]
    exact ⟨rfl, fun event hevent => absurd hevent List.not_mem_nil⟩

end Play

/-! ## The sections of a save -/

theorem bind_eq_ok {ε α β : Type} {x : Except ε α} {f : α → Except ε β} {b : β} :
    (x >>= f) = .ok b ↔ ∃ a, x = .ok a ∧ f a = .ok b := by
  cases x <;> simp [bind, Except.bind]

namespace SaveData

/-- A section of a save lists these ids; a missing one lists none. -/
def Lists (content : Json) (ids : List String) : Prop :=
  content = .strings ids ∨ content = .null ∧ ids = []

/-- What the sections of a save say. -/
structure Of (data : SaveData) (members : Assoc Json) : Prop where
  story : Reading.field members "story" = data.story.elim .null .object
  items : Lists (Reading.field members "inventoryIds") data.items
  notes : Lists (Reading.field members "noteIds") data.notes
  flags : Reading.field members "flags" = .object (Flags.ofValues data.flags) ∨
    Reading.field members "flags" = .null ∧ data.flags = []

theorem eq_of_storyOf {content : Json} {story : Option (Assoc Json)} (h : storyOf content = .ok story) :
    content = story.elim .null .object := by
  cases content with
  | null | object _ => exact Except.ok.inj h ▸ rfl
  | _ => cases h

theorem lists_of_idsOf {member : String} {content : Json} {ids : List String}
    (h : idsOf member content = .ok ids) : Lists content ids := by
  cases content with
  | null => exact .inr ⟨rfl, (Except.ok.inj h).symm⟩
  | array items =>
    rw [idsOf] at h
    split at h
    · rename_i ss hss
      left
      rw [Reading.eq_map_of_allStrings? hss, Except.ok.inj h, Json.strings]
    · cases h
  | _ => cases h

theorem eq_ofValues_of_flagMembers {members : List (String × Json)} {values : FlagValues}
    (h : flagMembers members = .ok values) : members = Flags.ofValues values := by
  induction members generalizing values with
  | nil => exact Except.ok.inj h ▸ rfl
  | cons entry rest ih =>
    obtain ⟨id, value⟩ := entry
    rw [flagMembers] at h
    split at h
    · rename_i v hv
      cases hrest : flagMembers rest with
      | error fault =>
        rw [hrest] at h
        cases h
      | ok tail =>
        rw [hrest] at h
        obtain rfl := Except.ok.inj h
        rw [ih hrest, Flags.ofValues, Flags.ofValues, List.map_cons, FlagValue.toJson_of_ofJson? hv]
    · cases h

theorem eq_of_flagsOf {content : Json} {values : FlagValues} (h : flagsOf content = .ok values) :
    content = .object (Flags.ofValues values) ∨ content = .null ∧ values = [] := by
  cases content with
  | null => exact .inr ⟨rfl, (Except.ok.inj h).symm⟩
  | object members => exact .inl (congrArg Json.object (eq_ofValues_of_flagMembers h))
  | _ => cases h

theorem of_read {document : Json} {data : SaveData} (h : SaveData.read document = .ok data) :
    ∃ members, document = .object members ∧ data.Of members := by
  cases document with
  | object members =>
    refine ⟨members, rfl, ?_⟩
    simp only [SaveData.read] at h
    split at h
    · obtain ⟨story, hstory, h⟩ := bind_eq_ok.mp h
      obtain ⟨items, hitems, h⟩ := bind_eq_ok.mp h
      obtain ⟨notes, hnotes, h⟩ := bind_eq_ok.mp h
      obtain ⟨values, hflags, h⟩ := bind_eq_ok.mp h
      obtain rfl := Except.ok.inj h
      exact ⟨eq_of_storyOf hstory, lists_of_idsOf hitems, lists_of_idsOf hnotes, eq_of_flagsOf hflags⟩
    · cases h
  | _ => cases h

end SaveData

namespace Session

variable {s : Session}

/-- A load leaves a session as it was. -/
structure Spares (s : Session) (load : SessionLoad) : Prop where
  session : load.session = s
  events : ∀ event ∈ load.events, event.isNotice = true

/-- A session after the load of a save: the history, the flags, the items and the notes are what the sections
of the save say, without the ids that a catalogue does not accept. What a save has no section for stays. -/
structure Resumes (s : Session) (document : Json) (t : Session) : Prop where
  sections : ∃ (members : Assoc Json) (data : SaveData) (story : Assoc Json),
    document = .object members ∧ data.Of members ∧ data.story = some story ∧
    (History.ofSnapshot s.play.script.graph s.play.script.bound (.object story)).result = .ok t.play.history ∧
    t.play.world.flags = .ofValues data.flags ∧
    (∀ id, id ∈ t.play.world.items.ids ↔ id ∈ data.items ∧ s.play.world.items.accepts id = true) ∧
    ∀ id, id ∈ t.play.world.notes.ids ↔ id ∈ data.notes ∧ s.play.world.notes.accepts id = true
  script : t.play.script = s.play.script
  kin : t.play.world.Kin s.play.world
  startingItems : t.startingItems = s.startingItems
  startingNotes : t.startingNotes = s.startingNotes

/-- Loading is all or nothing. -/
def AllOrNothing (s : Session) (document : Option Json) (load : SessionLoad) : Prop :=
  load.result ≠ .ok true ∧ s.Spares load ∨
    load.result = .ok true ∧ ∃ content, document = some content ∧ s.Resumes content load.session

theorem spares_refuseLoad (notice : Notice) : s.Spares (s.refuseLoad notice) := by
  refine ⟨rfl, ?_⟩
  intro event hevent
  obtain rfl := List.mem_singleton.mp hevent
  rfl

theorem allOrNothing_refuseLoad (document : Option Json) (notice : Notice) :
    s.AllOrNothing document (s.refuseLoad notice) :=
  .inl ⟨fun h => absurd (Except.ok.inj h) Bool.false_ne_true, spares_refuseLoad notice⟩

theorem takeOver_starting (data : SaveData) (turn : Turn) :
    (s.takeOver data turn).session.startingItems = s.startingItems ∧
      (s.takeOver data turn).session.startingNotes = s.startingNotes := by
  unfold takeOver
  split <;> exact ⟨rfl, rfl⟩

/-- A story that cannot be read leaves the session as it was. -/
theorem spares_takeOver {data : SaveData} {read : Restoring History} {fault : RestoreFault}
    (hread : read.result = .error fault) :
    (s.takeOver data (s.play.restoreFrom read)).result ≠ .ok true ∧
      s.Spares (s.takeOver data (s.play.restoreFrom read)) := by
  have hsession := @takeOver_session_of_error s data read fault hread
  rw [Play.restoreFrom_of_error hread] at hsession ⊢
  cases fault with
  | snapshot fault =>
    refine ⟨fun h => absurd (Except.ok.inj h) Bool.false_ne_true, hsession, ?_⟩
    intro event hevent
    rcases List.mem_append.mp hevent with hevent | hevent
    · exact isNotice_of_mem_noticeEvents event hevent
    · obtain rfl := List.mem_singleton.mp hevent
      rfl
  | _ =>
    refine ⟨?_, hsession, isNotice_of_mem_noticeEvents⟩
    intro h
    cases h

theorem allOrNothing_loadDocument (document : Json) :
    s.AllOrNothing (some document) (s.loadDocument document) := by
  cases hdata : SaveData.read document with
  | error fault =>
    simp only [loadDocument, loadBy, hdata]
    exact allOrNothing_refuseLoad _ _
  | ok data =>
    cases hstory : data.story with
    | none =>
      simp only [loadDocument, loadBy, hdata, hstory]
      exact allOrNothing_refuseLoad _ _
    | some story =>
      cases hread : (History.ofSnapshot s.play.script.graph s.play.script.bound (.object story)).result with
      | error fault =>
        rw [loadDocument, loadBy_of_read hdata hstory]
        exact .inl (spares_takeOver hread)
      | ok history =>
        obtain ⟨hresult, ambienceStarted, hplay⟩ := loadDocument_of_ok hdata hstory hread
        obtain ⟨members, hmembers, hof⟩ := SaveData.of_read hdata
        have hload : s.loadDocument document = s.takeOver data (s.play.restore (.object story)) :=
          loadBy_of_read hdata hstory
        obtain ⟨hitems, hnotes⟩ := hload ▸ takeOver_starting (s := s) data _
        refine .inr ⟨hresult, document, rfl, ?sections, ?script, ?kin, hitems, hnotes⟩
        case sections =>
          refine ⟨members, data, story, hmembers, hof, hstory, ?_⟩
          rw [hplay]
          exact ⟨hread, rfl, fun id => Collection.mem_ids_restore, fun id => Collection.mem_ids_restore⟩
        case script => rw [hplay]
        case kin =>
          rw [hplay]
          exact World.Kin.load s.play.world data

def stored (slot : Slot) (d : Disk) : Option Json := (slot.read d).toOption.join

theorem allOrNothing_quickLoad (slot : Slot) (d : Disk) :
    s.AllOrNothing (stored slot d) (s.quickLoad slot d) := by
  unfold quickLoad
  split
  · split
    · exact allOrNothing_refuseLoad _ _
    · refine .inl ⟨?_, rfl, fun event hevent => absurd hevent List.not_mem_nil⟩
      intro h
      cases h
  · exact allOrNothing_refuseLoad _ _
  · exact allOrNothing_refuseLoad _ _
  · rename_i document _ hread
    have hstored : stored slot d = some document := by rw [stored, hread]; rfl
    rw [hstored]
    rcases loadBy_restoreWithin_cases d.room document with hsame | ⟨_, notices, hstops⟩
    · rw [hsame]
      exact allOrNothing_loadDocument document
    · rw [hstops]
      refine .inl ⟨?_, rfl, isNotice_of_mem_noticeEvents⟩
      intro h
      cases h

/-- What is refused changes nothing: neither a snapshot that cannot be restored, nor a choice that cannot be
taken, nor a document that is no save does anything but tell notices. And a slot is loaded as a whole or not
at all, whatever it holds. -/
theorem refused_changes_nothing (s : Session) :
    (∀ snapshot fault, (s.play.restore snapshot).fault = some fault →
      s.play.Spares (s.play.restore snapshot)) ∧
    (∀ index fault, (s.play.chooseIndex index).fault = some fault →
      s.play.Spares (s.play.chooseIndex index)) ∧
    (∀ document fault, SaveData.read document = .error fault → s.Spares (s.loadDocument document)) ∧
    ∀ slot d, s.AllOrNothing (stored slot d) (s.quickLoad slot d) := by
  refine ⟨fun _ _ h => Play.spares_restore h, fun _ _ h => Play.spares_chooseIndex h, ?document,
    allOrNothing_quickLoad⟩
  case document =>
    intro document fault hread
    simp only [loadDocument, loadBy, hread]
    exact spares_refuseLoad _

def slotDisk (bytes : List UInt8) : Disk := { entries := [(#["quick_save.json"], .file bytes)] }

def gateText : String :=
  "\x7b\"version\": 1, \"story\": \x7b\"currentNodeId\": \"gate\", \"recentNodeIds\": [\"hall\"]\x7d, " ++
    "\"inventoryIds\": [\"rope\", \"lamp\"], \"flags\": \x7b\"met\": true\x7d\x7d"

theorem read_slotDisk (bytes : List UInt8) :
    (slotDisk bytes).read (Slot.path { directory := {} }) = .ok bytes := by
  rw [Slot.path_here]
  exact Disk.read_eq_ok.mpr ⟨_, Slot.resolve_here _, rfl⟩

theorem lampSession_refused_changes_nothing :
    let s := lampSession.actAll [.play .advance, .play .advance]
    let slot : Slot := { directory := {} }
    let torn := s.quickLoad slot (slotDisk [0x7b, 0xff])
    let loaded := s.quickLoad slot (slotDisk (Utf8.encode gateText))
    (s.play.restore (.object [])).fault = some (.restore (.snapshot .noHistory)) ∧
      s.play.Spares (s.play.restore (.object [])) ∧
      (s.play.chooseIndex 2).fault = some (.noSuchChoice 2 (some "ask")) ∧
      s.play.Spares (s.play.chooseIndex 2) ∧
      SaveData.read (.object []) = .error (.version .null) ∧ s.Spares (s.loadDocument (.object [])) ∧
      torn.result = .ok false ∧ s.Spares torn ∧
      loaded.result = .ok true ∧ ∃ document, s.Resumes document loaded.session := by
  intro s slot torn loaded
  obtain ⟨hrestore, hchoose, hdocument, hslot⟩ := refused_changes_nothing s
  have hsnapshot : (s.play.restore (.object [])).fault = some (.restore (.snapshot .noHistory)) := by
    decide +kernel
  have hindex : (s.play.chooseIndex 2).fault = some (.noSuchChoice 2 (some "ask")) := by decide +kernel
  have htorn : torn.result = .ok false := by
    simp only [torn, quickLoad, Slot.read, Disk.readDocument, slot, read_slotDisk]
    rfl
  have hloaded : loaded.result = .ok true := by
    simp only [loaded, quickLoad, Slot.read, Disk.readDocument, slot, read_slotDisk]
    decide +kernel
  refine ⟨hsnapshot, hrestore _ _ hsnapshot, hindex, hchoose _ _ hindex, rfl, hdocument _ _ rfl, htorn, ?_,
    hloaded, ?_⟩
  · rcases hslot slot (slotDisk [0x7b, 0xff]) with ⟨_, hspares⟩ | ⟨hok, _⟩
    · exact hspares
    · exact absurd (htorn.symm.trans hok) (by decide)
  · rcases hslot slot (slotDisk (Utf8.encode gateText)) with ⟨hrefused, _⟩ | ⟨_, document, _, hresumes⟩
    · exact absurd hloaded hrefused
    · exact ⟨document, hresumes⟩

end Session
end BranchingStory
