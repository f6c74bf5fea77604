import BranchingStory.Proofs.LoadFaults
import BranchingStory.Proofs.Refusals

/-!
# New games

A new game puts together again what a session started with: the position, the flags, the items, the notes and the
marks of what has begun. It does so from what the session still holds, so the question is whether anything of it
was lost on the way. Nothing that is done to a session touches the script, the default flags, the catalogues and
the starting lists (`Descends`), and a session that was just built holds nothing that does not follow from them
(`Fresh`). So a new game makes it the session that was built.
-/

namespace BranchingStory

/-! ## Catalogues and what is held of them -/

namespace Collection

variable {c : Collection}

/-- The held ids stand in the order of the catalogue, in which nothing stands twice. -/
structure InOrder (c : Collection) : Prop where
  nodup : c.catalogue.Nodup
  sublist : c.held.Sublist c.catalogue

theorem addAll_value_of_nodup {ids : List String} (hnodup : (c.held ++ ids).Nodup)
    (haccept : ∀ id ∈ ids, c.accepts id = true) :
    (c.addAll ids).value = { c with held := c.held ++ ids } := by
  induction ids generalizing c with
  | nil => simp [addAll]
  | cons id ids ih =>
    have hadd : (c.add id).value = { c with held := c.held ++ [id] } := by
      have hnew : id ∉ c.held := fun hheld =>
        List.disjoint_of_nodup_append hnodup hheld List.mem_cons_self
      simp [add, haccept id List.mem_cons_self, hnew]
    rw [addAll, Told.value_bind, hadd, ih]
    · simp
    · simpa using hnodup
    · intro other hother
      exact haccept other (List.mem_cons_of_mem id hother)

theorem accepts_of_mem {id : String} (h : id ∈ c.catalogue) : c.accepts id = true := by
  simp [accepts, h]

theorem InOrder.ids (h : c.InOrder) : c.ids = c.held := by
  by_cases hempty : c.catalogue.isEmpty = true
  · have hheld : c.held = [] := by
      have hsublist := h.sublist
      rwa [List.isEmpty_iff.mp hempty, List.sublist_nil] at hsublist
    simp [Collection.ids, hempty, hheld]
  · rw [Collection.ids, if_neg hempty]
    have hperm : (c.catalogue.filter c.held.contains).Perm c.held := by
      rw [List.perm_ext_iff_of_nodup (h.nodup.filter _) (h.nodup.sublist h.sublist)]
      intro id
      rw [List.mem_filter, List.contains_iff_mem]
      exact ⟨And.right, fun hheld => ⟨h.sublist.mem hheld, hheld⟩⟩
    have hkept := h.sublist.filter c.held.contains
    rw [List.filter_eq_self.mpr fun id hid => List.contains_iff_mem.mpr hid] at hkept
    exact (hkept.eq_of_length hperm.length_eq.symm).symm

theorem InOrder.restore_ids (h : c.InOrder) : (c.restore c.ids).value = c := by
  have hheld : c.held.Nodup := h.nodup.sublist h.sublist
  rw [h.ids, restore, addAll_value_of_nodup]
  · simp
  · simpa using hheld
  · intro id hid
    exact accepts_of_mem (c := { c with held := [] }) (h.sublist.mem hid)

theorem eraseDups_of_nodup {ids : List String} (h : ids.Nodup) : ids.eraseDups = ids := by
  induction ids with
  | nil => rfl
  | cons id ids ih =>
    obtain ⟨hnew, hrest⟩ := List.nodup_cons.mp h
    have hkept : ids.filter (fun other => !other == id) = ids := by
      rw [List.filter_eq_self]
      intro other hother
      have hne : other ≠ id := fun heq => hnew (heq ▸ hother)
      simpa using hne
    rw [List.eraseDups_cons, hkept, ih hrest]

theorem InOrder.make {kind : CollectionKind} {catalogue held : List String} (hnodup : catalogue.Nodup)
    (hsublist : held.Sublist catalogue) : (make kind catalogue held).value.InOrder := by
  rw [Collection.make, eraseDups_of_nodup hnodup, addAll_value_of_nodup]
  · exact ⟨hnodup, hsublist⟩
  · exact hnodup.sublist hsublist
  · intro id hid
    exact accepts_of_mem (hsublist.mem hid)

end Collection

/-! ## Catalogues that are read -/

namespace Assoc

variable {α : Type} {m : Assoc α}

theorem contains_eq_false_iff {key : String} : contains m key = false ↔ key ∉ m.keys := by
  induction m with
  | nil => simp [contains, keys]
  | cons entry rest ih =>
    obtain ⟨name, value⟩ := entry
    by_cases h : name = key
    · simp [contains, keys, get?, h]
    · simpa [contains, keys, get?, h, Ne.symm h] using ih

theorem keys_append (m n : Assoc α) : keys (m ++ n) = m.keys ++ n.keys := List.map_append

end Assoc

theorem nodup_of_readCatalogue {α : Type} {list sort : String} {entry : String → Assoc Json → Reading α}
    {read found : Assoc α} {index : Nat} {items : List Json} (hread : read.keys.Nodup)
    (h : (readCatalogue list sort entry read index items).result = .ok found) : found.keys.Nodup := by
  induction items generalizing read index with
  | nil =>
    obtain rfl := Except.ok.inj h
    exact hread
  | cons item items ih =>
    obtain ⟨members, _, h⟩ := Attempt.result_bind_eq_ok.mp h
    obtain ⟨id, _, h⟩ := Attempt.result_bind_eq_ok.mp h
    split at h
    · simp [Reading.fail] at h
    · rename_i hnew
      obtain ⟨first, _, h⟩ := Attempt.result_bind_eq_ok.mp h
      refine ih ?_ h
      rw [Assoc.keys_append]
      refine hread.append (List.nodup_singleton id) ?_
      simpa [Assoc.keys] using Assoc.contains_eq_false_iff.mp (by simpa using hnew)

namespace Source

variable {α β : Type} {s : Source α β} {directory : Path} {d : Disk}

theorem exists_build_of_load {a : α} (h : (s.load directory d).result = .ok a) :
    ∃ room document, (s.build room document).result = .ok a := by
  obtain ⟨document, _, h⟩ := Attempt.result_bind_eq_ok.mp h
  exact ⟨d.room, document, Attempt.mapError_eq_ok.mp h⟩

theorem nodup_items {found : Assoc Item} (h : (items.load directory d).result = .ok found) :
    found.keys.Nodup := by
  obtain ⟨_, document, h⟩ := exists_build_of_load h
  cases document with
  | array items =>
    have hnone : (Assoc.keys ([] : Assoc Item)).Nodup := List.nodup_nil
    exact nodup_of_readCatalogue hnone h
  | _ => cases h

theorem nodup_notes {found : Assoc Note} (h : (notes.load directory d).result = .ok found) :
    found.keys.Nodup := by
  obtain ⟨_, document, h⟩ := exists_build_of_load h
  cases document with
  | array items =>
    have hnone : (Assoc.keys ([] : Assoc Note)).Nodup := List.nodup_nil
    exact nodup_of_readCatalogue hnone h
  | _ => cases h

end Source

/-! ## Sessions that were just built -/

namespace Session

variable {s t : Session} {directory : Path} {d : Disk}

/-- A session in which nothing has happened yet. -/
structure Fresh (s : Session) : Prop where
  play : Play.fresh? s.play.script s.play.world = some s.play
  flags : s.play.world.flags = s.play.world.defaults
  items : s.play.world.items.InOrder
  notes : s.play.world.notes.InOrder
  startingItems : s.startingItems = s.play.world.items.ids
  startingNotes : s.startingNotes = s.play.world.notes.ids

theorem startingIds_sublist {α : Type} (has : α → Bool) (definitions : Assoc α) :
    (startingIds has definitions).Sublist definitions.keys := List.filter_sublist.map Prod.fst

/-- What a built session is made of. -/
theorem exists_make_of_build (h : (build directory d).result = .ok s) :
    ∃ (graph : Graph) (cast : Cast) (flags : FlagValues) (items : Assoc Item) (notes : Assoc Note) (world : World),
      items.keys.Nodup ∧ notes.keys.Nodup ∧
      (World.make (.ofValues flags) items.keys (startingIds Item.acquired items) notes.keys
        (startingIds Note.unlocked notes)).value = world ∧
      Play.make { graph, cast } world none = .ok s.play ∧
      s.startingItems = world.items.ids ∧ s.startingNotes = world.notes.ids := by
  obtain ⟨flags, _, h⟩ := Attempt.result_bind_eq_ok.mp h
  obtain ⟨items, hitems, h⟩ := Attempt.result_bind_eq_ok.mp h
  obtain ⟨notes, hnotes, h⟩ := Attempt.result_bind_eq_ok.mp h
  obtain ⟨_, _, h⟩ := Attempt.result_bind_eq_ok.mp h
  obtain ⟨graph, _, h⟩ := Attempt.result_bind_eq_ok.mp h
  obtain ⟨cast, _, h⟩ := Attempt.result_bind_eq_ok.mp h
  obtain ⟨play, hplay, h⟩ := Attempt.result_bind_eq_ok.mp h
  obtain rfl := Except.ok.inj h
  have hitems := Source.nodup_items (Attempt.mapError_eq_ok.mp hitems)
  have hnotes := Source.nodup_notes (Attempt.mapError_eq_ok.mp hnotes)
  exact ⟨graph, cast, flags, items, notes, _, hitems, hnotes, rfl, Attempt.mapError_eq_ok.mp hplay, rfl, rfl⟩

theorem fresh_of_build (h : (build directory d).result = .ok s) : s.Fresh := by
  obtain ⟨graph, cast, flags, items, notes, world, hitems, hnotes, hmade, hplay, hstartingItems, hstartingNotes⟩ :=
    exists_make_of_build h
  have hfresh : Play.fresh? { graph, cast } world = some s.play := (Play.make_eq_ok hplay).2
  obtain ⟨_, heq⟩ := Play.fresh?_eq_some hfresh
  have hscript : s.play.script = { graph, cast } := by rw [heq]
  have hworld : s.play.world = world := by rw [heq]
  rw [← hscript, ← hworld] at hfresh
  rw [← hworld] at hmade hstartingItems hstartingNotes
  refine ⟨hfresh, ?flags, ?items, ?notes, hstartingItems, hstartingNotes⟩
  case flags =>
    rw [← hmade]
    rfl
  case items =>
    rw [← hmade]
    exact Collection.InOrder.make hitems (startingIds_sublist _ items)
  case notes =>
    rw [← hmade]
    exact Collection.InOrder.make hnotes (startingIds_sublist _ notes)

/-! ## What is done with a session -/

/-- What is heard of some events: the sound cues and the beginning. Notices only go to a log. -/
def heard (events : List Event) : List Event := events.filter fun event => !event.isNotice

theorem heard_append (before after : List Event) : heard (before ++ after) = heard before ++ heard after :=
  List.filter_append ..

theorem heard_noticeEvents (notices : List Notice) : heard (noticeEvents notices) = [] := by
  rw [heard, List.filter_eq_nil_iff]
  intro event hevent
  simp [isNotice_of_mem_noticeEvents event hevent]

/-- What may be done with a session: the operations of its play, the effects of any node, a new game, and a load
from a slot on a disk. -/
inductive Deed where
  | play (operation : Operation)
  | effects (n : Node)
  | newGame
  | quickLoad (slot : Slot) (d : Disk)

/-- What a deed leads to: besides the session, everything that is given back or heard. -/
structure Outcome where
  session : Session
  shown : List Block := []
  events : List Event := []
  result : Except SessionFault Bool := .ok true

def carryOut (s : Session) : Deed → Outcome
  | .play operation =>
    let turn := s.play.perform operation
    { session := { s with play := turn.play }, shown := turn.shown, events := turn.events
      result := turn.fault.elim (.ok true) (.error ∘ .play) }
  | .effects n =>
    let world := s.play.world.apply n
    { session := { s with play := { s.play with world := world.value } }, events := noticeEvents world.notices }
  | .newGame => { session := s.newGame.session, events := s.newGame.events }
  | .quickLoad slot d =>
    let load := s.quickLoad slot d
    { session := load.session, events := load.events, result := load.result }

def after (s : Session) (deeds : List Deed) : Session :=
  deeds.foldl (fun s deed => (s.carryOut deed).session) s

def outcomes (s : Session) : List Deed → List Outcome
  | [] => []
  | deed :: deeds => s.carryOut deed :: (s.carryOut deed).session.outcomes deeds

/-- What a session keeps of the one it goes back to. -/
structure Descends (t s : Session) : Prop where
  script : t.play.script = s.play.script
  blank : t.play.world.blank = s.play.world.blank
  startingItems : t.startingItems = s.startingItems
  startingNotes : t.startingNotes = s.startingNotes

theorem Descends.refl (s : Session) : s.Descends s := ⟨rfl, rfl, rfl, rfl⟩

theorem Descends.trans {u : Session} (h : u.Descends t) (h' : t.Descends s) : u.Descends s := by
  constructor
  · exact h.script.trans h'.script
  · exact h.blank.trans h'.blank
  · exact h.startingItems.trans h'.startingItems
  · exact h.startingNotes.trans h'.startingNotes

theorem act_descends (action : Action) : (s.act action).Descends s := by
  obtain ⟨hitems, hnotes⟩ : (s.act action).startingItems = s.startingItems ∧
      (s.act action).startingNotes = s.startingNotes := by
    cases action with
    | load document =>
      rw [act, loadDocument, loadBy]
      split
      · exact ⟨rfl, rfl⟩
      · split
        · exact ⟨rfl, rfl⟩
        · exact takeOver_starting _ _
    | _ => exact ⟨rfl, rfl⟩
  exact ⟨act_script action, act_blank action, hitems, hnotes⟩

theorem carryOut_descends (deed : Deed) : (s.carryOut deed).session.Descends s := by
  cases deed with
  | play operation => exact act_descends (.play operation)
  | effects n => exact ⟨rfl, World.apply_blank s.play.world n, rfl, rfl⟩
  | newGame => exact act_descends .newGame
  | quickLoad slot d =>
    rw [carryOut, quickLoad]
    dsimp only
    split
    · split <;> exact Descends.refl s
    · exact Descends.refl s
    · exact Descends.refl s
    · rename_i document _ _
      rcases loadBy_restoreWithin_cases d.room document with hsame | ⟨_, _, hstops⟩
      · rw [hsame]
        exact act_descends (.load document)
      · rw [hstops]
        exact Descends.refl s

theorem after_descends (deeds : List Deed) : (s.after deeds).Descends s := by
  induction deeds generalizing s with
  | nil => exact Descends.refl s
  | cons deed deeds ih => exact ih.trans (carryOut_descends deed)

/-! ## A new game -/

theorem Descends.newWorld (h : t.Descends s) (hs : s.Fresh) : t.newWorld = s.play.world := by
  obtain ⟨hdefaults, hitems, hnotes⟩ : t.play.world.defaults = s.play.world.defaults ∧
      t.play.world.items.blank = s.play.world.items.blank ∧
      t.play.world.notes.blank = s.play.world.notes.blank := by simpa [World.blank] using h.blank
  have hrestoredItems : (t.play.world.items.restore t.startingItems).value = s.play.world.items := by
    rw [h.startingItems, hs.startingItems, Collection.restore_eq_of_blank hitems, hs.items.restore_ids]
  have hrestoredNotes : (t.play.world.notes.restore t.startingNotes).value = s.play.world.notes := by
    rw [h.startingNotes, hs.startingNotes, Collection.restore_eq_of_blank hnotes, hs.notes.restore_ids]
  calc
    t.newWorld = ⟨t.play.world.defaults, t.play.world.defaults, s.play.world.items, s.play.world.notes⟩ := by
      rw [Session.newWorld, hrestoredItems, hrestoredNotes]
      rfl
    _ = ⟨s.play.world.defaults, s.play.world.flags, s.play.world.items, s.play.world.notes⟩ := by
      rw [hdefaults, hs.flags]
    _ = s.play.world := rfl

/-- Resetting and putting the new world in makes the play of the fresh session again. -/
theorem Descends.reset (h : t.Descends s) (hs : s.Fresh) :
    { t.play.reset.play with world := t.newWorld } = s.play := by
  obtain ⟨history, hhistory, hplay⟩ := Option.bind_eq_some_iff.mp hs.play
  have hreset : t.play.reset.play = { t.play with history, begun := false, ambienceStarted := false } := by
    rw [← h.script] at hhistory
    simp only [Play.reset, hhistory]
  have hplay := Option.some.inj hplay
  rw [hreset, h.newWorld hs]
  dsimp only
  rw [h.script]
  exact hplay

theorem newGame_of_reset {p : Play} (h : { t.play.reset.play with world := t.newWorld } = p) :
    t.newGame.session = { t with play := p.startAmbience.play } ∧
      heard t.newGame.events = heard p.startAmbience.events := by
  obtain ⟨hworld, hsilent⟩ : t.play.reset.play.world = t.play.world ∧ heard t.play.reset.events = [] := by
    unfold Play.reset
    split <;> exact ⟨rfl, rfl⟩
  have hplay : { t.play.reset.play with world := { t.play.reset.play.world.resetFlags with
      items := (t.play.reset.play.world.resetFlags.items.restore t.startingItems).value
      notes := (t.play.reset.play.world.resetFlags.notes.restore t.startingNotes).value } } = p := by
    rw [← h, newWorld, hworld]
    rfl
  rw [newGame]
  dsimp only
  rw [hplay]
  refine ⟨rfl, ?_⟩
  rw [heard_append, heard_append, hsilent, heard_noticeEvents, List.append_nil, List.nil_append]

/-- However a session was played, with saves loaded in between or not, a new game makes it the session that was
built, with its ambience started. Nobody can tell the two apart, by what is heard now or by anything that is done
later. -/
theorem newGame_forgets (h : (build directory d).result = .ok s) (deeds : List Deed) :
    (s.after deeds).newGame.session = s.startAmbience.session ∧
      heard (s.after deeds).newGame.events = heard s.startAmbience.events ∧
      ∀ later, (s.after deeds).newGame.session.outcomes later = s.startAmbience.session.outcomes later := by
  have hdescends := after_descends (s := s) deeds
  obtain ⟨hsession, hevents⟩ := newGame_of_reset (hdescends.reset (fresh_of_build h))
  have hsame : (s.after deeds).newGame.session = s.startAmbience.session := by
    rw [hsession, startAmbience, ← hdescends.startingItems, ← hdescends.startingNotes]
  refine ⟨hsame, hevents, ?_⟩
  intro later
  rw [hsame]

/-- The documents of a story that asks at a gate and gives a lamp to every new player. -/
def gateDisk : Disk :=
  { entries :=
      [(#["flags.json"], .file (Utf8.encode "\x7b\"met\": \x7b\x7d\x7d")),
       (#["items.json"], .file (Utf8.encode
         "[\x7b\"id\": \"rope\", \"name\": \"Rope\"\x7d, \x7b\"id\": \"lamp\", \"name\": \"Lamp\", \"acquired\": true\x7d]")),
       (#["notes.json"], .file (Utf8.encode "[]")),
       (#["story.json"], .file (Utf8.encode ("[\x7b\"id\": \"gate\", \"type\": \"dialogueChoice\", " ++
         "\"text\": \"Who is there?\", \"choices\": [\x7b\"text\": \"A friend\", \"effects\": \x7b\"met\": true\x7d\x7d]\x7d]"))),
       (#["characters.json"], .file (Utf8.encode "\x7b\x7d"))] }

def gateBytes (name : String) : List UInt8 :=
  match gateDisk.entry? #[name] with
  | some (.file bytes) => bytes
  | _ => []

theorem read_gateDisk {name : String} (h : name ∈ Source.documentNames) :
    gateDisk.read (Path.file {} name) = .ok (gateBytes name) := by
  refine Source.read_of_entry h ?_
  simp only [Source.documentNames, List.mem_cons, List.not_mem_nil, or_false] at h
  rcases h with rfl | rfl | rfl | rfl | rfl <;> rfl

/-- Someone answers at the gate, trades the lamp for the rope, starts over and trades again. -/
def gateDeeds : List Deed :=
  let trade : Deed := .effects { kind := .singleParagraph, itemsAdded := ["rope"], itemsRemoved := ["lamp"] }
  [.play .begin, .play (.chooseIndex 0), trade, .newGame, trade]

theorem held_after_gateDeeds :
    ((build {} gateDisk).result.toOption.map fun s => (s.after gateDeeds).play.world.items.held) =
      some ["rope"] := by
  simp (disch := decide) only [build, Source.load, Disk.load, Disk.readDocument, read_gateDisk]
  decide +kernel

theorem gateDisk_newGame_forgets : ∃ s, (build {} gateDisk).result = .ok s ∧
    (s.after gateDeeds).play.world.items.held = ["rope"] ∧
    (s.after gateDeeds).newGame.session = s.startAmbience.session ∧
    heard (s.after gateDeeds).newGame.events = heard s.startAmbience.events ∧
    ∀ later, (s.after gateDeeds).newGame.session.outcomes later = s.startAmbience.session.outcomes later := by
  obtain ⟨s, hbuild, hheld⟩ := Attempt.exists_of_map_toOption held_after_gateDeeds
  exact ⟨s, hbuild, hheld, newGame_forgets hbuild gateDeeds⟩

end Session
end BranchingStory
