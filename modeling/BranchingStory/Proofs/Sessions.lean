import BranchingStory.Console.Session
import BranchingStory.Proofs.Consistency
import BranchingStory.Proofs.SnapshotDepth
import BranchingStory.Proofs.Worlds

/-!
# Session runs

On top of the operations of its play, a session is started over and loads saves, and its host sets flags.
Any document may be offered as a save. Nothing that is ever done to a session changes the data it is
played over: the graph, the cast, the bound, the catalogues and the default flags.
-/

namespace BranchingStory

/-- The worlds have the same defaults and the same catalogues. -/
structure World.Kin (w v : World) : Prop where
  defaults : w.defaults = v.defaults
  items : w.items.catalogue = v.items.catalogue
  notes : w.notes.catalogue = v.notes.catalogue

namespace World

variable {w v : World}

/-- The world with no flag set, no item held and no note unlocked. Its defaults and catalogues are left. -/
def blank (w : World) : World := { w with flags := [], items := w.items.blank, notes := w.notes.blank }

theorem Kin.of_blank (h : w.blank = v.blank) : w.Kin v := by
  obtain ⟨hdefaults, hitems, hnotes⟩ : w.defaults = v.defaults ∧ w.items.blank = v.items.blank ∧
      w.notes.blank = v.notes.blank := by simpa [blank] using h
  exact ⟨hdefaults, Collection.catalogue_eq_of_blank hitems, Collection.catalogue_eq_of_blank hnotes⟩

@[simp] theorem apply_blank (w : World) (n : Node) : (w.apply n).value.blank = w.blank := by
  rw [apply_value]
  simp [blank]

@[simp] theorem applyAll_blank (w : World) (nodes : List Node) : (w.applyAll nodes).value.blank = w.blank := by
  induction nodes generalizing w with
  | nil => rfl
  | cons n nodes ih => exact (ih (w.apply n).value).trans (apply_blank w n)

@[simp] theorem load_blank (w : World) (data : SaveData) : (w.load data).value.blank = w.blank := by
  simp [blank, load]

theorem Kin.load (w : World) (data : SaveData) : (w.load data).value.Kin w := Kin.of_blank (load_blank w data)

end World

namespace Play

variable {p : Play}

theorem chosenWorld_blank (choice : Choice) : (p.chosenWorld choice).blank = p.world.blank := by
  have hreacted := World.applyAll_blank (p.world.applyEffects choice.effects).value choice.reactions
  exact (World.applyAll_blank _ (p.chosenNode choice).toList).trans hreacted

theorem chosenWorld_kin (choice : Choice) : (p.chosenWorld choice).Kin p.world :=
  World.Kin.of_blank (chosenWorld_blank choice)

theorem perform_blank (operation : Operation) : (p.perform operation).play.world.blank = p.world.blank := by
  refine perform_induction (P := fun q => q.world.blank = p.world.blank) operation rfl ?mark rfl ?shows ?chosen
    ?reset ?restore ?flags
  case mark => exact fun _ _ _ hq => hq
  case shows => exact fun n _ => World.apply_blank p.world n
  case chosen => exact chosenWorld_blank
  all_goals intros; rfl

end Play

namespace Session

/-- What can be done with a session. -/
inductive Action where
  | play (operation : Operation)
  | setFlag (id : String) (value : FlagValue)
  | newGame
  | load (document : Json)

variable (s : Session)

def act : Action → Session
  | .play operation => { s with play := (s.play.perform operation).play }
  | .setFlag id value => { s with play := { s.play with world := s.play.world.setFlag id value.toJson } }
  | .newGame => s.newGame.session
  | .load document => (s.loadDocument document).session

def actAll (actions : List Action) : Session := actions.foldl act s

variable {s}

theorem actAll_induction {P : Session → Prop} {actions : List Action} (hs : P s)
    (hstep : ∀ t action, action ∈ actions → P t → P (t.act action)) : P (s.actAll actions) := by
  induction actions generalizing s with
  | nil => exact hs
  | cons action actions ih =>
    apply ih (hstep s action List.mem_cons_self hs)
    intro t other hother
    exact hstep t other (List.mem_cons_of_mem _ hother)

/-! ## Loading -/

theorem loadBy_of_read {restore : Json → Turn} {document : Json} {data : SaveData} {story : Assoc Json}
    (hdata : SaveData.read document = .ok data) (hstory : data.story = some story) :
    s.loadBy restore document = s.takeOver data (restore (.object story)) := by
  simp only [loadBy, hdata, hstory]

/-- Loading a save whose story can be read brings back the history of that story, and takes the rest of
the save over into the world. -/
theorem loadDocument_of_ok {document : Json} {data : SaveData} {story : Assoc Json} {history : History}
    (hdata : SaveData.read document = .ok data) (hstory : data.story = some story)
    (hread : (History.ofSnapshot s.play.script.graph s.play.script.bound (.object story)).result =
      .ok history) :
    (s.loadDocument document).result = .ok true ∧ ∃ ambienceStarted,
      (s.loadDocument document).session.play =
        { s.play with history, world := (s.play.world.load data).value, begun := true, ambienceStarted } := by
  obtain ⟨hfault, ambienceStarted, hplay⟩ := Play.restore_of_ok hread
  rw [loadDocument, loadBy_of_read hdata hstory, takeOver, hfault, hplay]
  exact ⟨rfl, ambienceStarted, rfl⟩

theorem takeOver_session_of_error {data : SaveData} {read : Restoring History} {fault : RestoreFault}
    (hread : read.result = .error fault) : (s.takeOver data (s.play.restoreFrom read)).session = s := by
  rw [Play.restoreFrom_of_error hread, takeOver]
  cases fault <;> rfl

/-- A document that is no save, or whose story cannot be read, changes nothing. -/
theorem loadDocument_cases (document : Json) : (s.loadDocument document).session = s ∨
    ∃ data story history, SaveData.read document = .ok data ∧ data.story = some story ∧
      (History.ofSnapshot s.play.script.graph s.play.script.bound (.object story)).result = .ok history := by
  cases hdata : SaveData.read document with
  | error fault =>
    left
    simp only [loadDocument, loadBy, hdata]
    rfl
  | ok data =>
    cases hstory : data.story with
    | none =>
      left
      simp only [loadDocument, loadBy, hdata, hstory]
      rfl
    | some story =>
      cases hread : (History.ofSnapshot s.play.script.graph s.play.script.bound (.object story)).result with
      | error fault =>
        left
        rw [loadDocument, loadBy_of_read hdata hstory]
        exact takeOver_session_of_error hread
      | ok history => exact .inr ⟨data, story, history, rfl, hstory, hread⟩

/-- The document is a save, and there is too little room to read its story. -/
def TooNested (s : Session) (room : Nat) (document : Json) : Prop :=
  ∃ data story, SaveData.read document = .ok data ∧ data.story = some story ∧
    (History.ofSnapshotWithin room s.play.script.graph s.play.script.bound (.object story)).result =
      .error .tooDeep ∧ ¬ (Json.object story).NestsWithin (2 * room + 3)

/-- With so much room a document is loaded as without a limit, unless there is too little room for its story. -/
theorem loadBy_restoreWithin_cases (room : Nat) (document : Json) :
    s.loadBy (s.play.restoreWithin room) document = s.loadDocument document ∨
      s.TooNested room document ∧ ∃ notices, s.loadBy (s.play.restoreWithin room) document =
        { session := s, events := noticeEvents notices, result := .error (.play (.restore .tooDeep)) } := by
  cases hdata : SaveData.read document with
  | error fault => exact .inl (by simp only [loadDocument, loadBy, hdata])
  | ok data =>
    cases hstory : data.story with
    | none => exact .inl (by simp only [loadDocument, loadBy, hdata, hstory])
    | some story =>
      rw [loadDocument, loadBy_of_read hdata hstory, loadBy_of_read hdata hstory]
      rcases History.ofSnapshotWithin_isUnless room s.play.script.graph s.play.script.bound (.object story) with
        hsame | ⟨hstops, hdeep⟩
      · exact .inl (by rw [Play.restoreWithin, hsame, Play.restore])
      · refine .inr ⟨⟨data, story, hdata, hstory, hstops, hdeep.not_nestsWithin⟩, ?_⟩
        rw [Play.restoreWithin, Play.restoreFrom_of_error hstops, takeOver]
        exact ⟨_, rfl⟩

/-! ## What a session is played over -/

def newWorld (s : Session) : World :=
  { s.play.world.resetFlags with
    items := (s.play.world.items.restore s.startingItems).value
    notes := (s.play.world.notes.restore s.startingNotes).value }

theorem newGame_play : ∃ ambienceStarted,
    s.newGame.session.play = { s.play.reset.play with world := s.newWorld, ambienceStarted } := by
  have hreset : s.play.reset.play.world = s.play.world := by
    unfold Play.reset
    split <;> rfl
  obtain ⟨ambienceStarted, hplay⟩ :=
    Play.startAmbience_play (p := { s.play.reset.play with world := s.newWorld })
  refine ⟨ambienceStarted, ?_⟩
  rw [← hplay, newWorld, ← hreset]
  rfl

theorem act_script (action : Action) : (s.act action).play.script = s.play.script := by
  cases action with
  | play operation => exact Play.perform_script operation
  | setFlag id value => rfl
  | newGame =>
    obtain ⟨_, hplay⟩ := newGame_play (s := s)
    rw [act, hplay]
    exact Play.perform_script .reset
  | load document =>
    rcases loadDocument_cases (s := s) document with hload | ⟨data, story, history, hdata, hstory, hread⟩
    · rw [act, hload]
    · obtain ⟨_, ambienceStarted, hplay⟩ := loadDocument_of_ok hdata hstory hread
      rw [act, hplay]

theorem act_blank (action : Action) : (s.act action).play.world.blank = s.play.world.blank := by
  cases action with
  | play operation => exact Play.perform_blank operation
  | setFlag id value => rfl
  | newGame =>
    obtain ⟨_, hplay⟩ := newGame_play (s := s)
    rw [act, hplay]
    simp [newWorld, World.blank, World.resetFlags]
  | load document =>
    rcases loadDocument_cases (s := s) document with hload | ⟨data, story, history, hdata, hstory, hread⟩
    · rw [act, hload]
    · obtain ⟨_, ambienceStarted, hplay⟩ := loadDocument_of_ok hdata hstory hread
      rw [act, hplay]
      exact World.load_blank s.play.world data

theorem actAll_script (actions : List Action) : (s.actAll actions).play.script = s.play.script := by
  refine actAll_induction (P := fun t => t.play.script = s.play.script) rfl ?_
  intro t action _ ht
  rw [act_script, ht]

theorem actAll_blank (actions : List Action) : (s.actAll actions).play.world.blank = s.play.world.blank := by
  refine actAll_induction (P := fun t => t.play.world.blank = s.play.world.blank) rfl ?_
  intro t action _ ht
  rw [act_blank, ht]

theorem actAll_kin (actions : List Action) : (s.actAll actions).play.world.Kin s.play.world :=
  World.Kin.of_blank (actAll_blank actions)

end Session
end BranchingStory
