import BranchingStory.Console.Loop
import BranchingStory.Proofs.Checkpoint
import BranchingStory.Proofs.DiskChanges
import BranchingStory.Proofs.NewGame
import BranchingStory.Proofs.SnapshotDepth
import BranchingStory.Proofs.TypedLines
import Mathlib.Data.List.TakeWhile

/-!
# Console runs

A console reads lines until it is told to quit or there are no more of them, or until something stops it that no
reply is made for. Six things can end the loop at a line for what the line says (`Console.Ends`), and only the first
of them is meant to: the word for quitting, digits that are no number, a save with a volume that is too large, a save
or the story in it that nests too deep, and a slot whose path holds the null character. Another is that something
cannot be written on the screen, before a line or in reply to it. What a line does to the session is one of its
actions, so every console that a run comes to holds a session that can be saved; for such a session nothing else can
go wrong.
-/

namespace BranchingStory

/-! ## Slots without a path -/

namespace Slot

variable {s : Slot} {save : Assoc Json} {d : Disk}

/-- The way to the slot cannot be gone: the directory, or else the file in it, holds the null character. -/
def HoldsNull (s : Slot) (d : Disk) : Prop := s.directory.text.contains '\x00' = true ∨
  (d.makeDirs s.directory).fault = none ∧ s.path.text.contains '\x00' = true

theorem write_eq_nullCharacter : (s.write save d).result = .error .nullCharacter ↔
    s.lastWritten ≠ some (identityText save) ∧ s.HoldsNull d := by
  by_cases hsame : s.lastWritten = some (identityText save)
  · simp [write, hsame]
  · rw [HoldsNull, ← Disk.makeDirs_fault_eq_nullCharacter (d := d), write]
    dsimp only
    rw [if_neg hsame, and_iff_right hsame]
    cases hfault : (d.makeDirs s.directory).fault with
    | some fault => simp
    | none =>
      have hnull : (d.makeDirs s.directory).disk.writeDocument s.path (.object save) = .error .nullCharacter ↔
          s.path.text.contains '\x00' = true := Disk.write_eq_nullCharacter
      rw [← hnull]
      cases (d.makeDirs s.directory).disk.writeDocument s.path (.object save) with
      | ok written => simp
      | error fault => simp

end Slot

/-! ## Texts that fit -/

namespace Charset

theorem fault?_eq_none_iff (cs : Charset) {text : List Char} : cs.fault? text = none ↔ ∀ c ∈ text, cs.has c = true := by
  have hbehind : text.drop (cs.writable text).length = text.dropWhile cs.has := by
    have h := @List.drop_left Char (text.takeWhile cs.has) (text.dropWhile cs.has)
    rwa [List.takeWhile_append_dropWhile] at h
  rw [← List.dropWhile_eq_nil_iff, fault?, hbehind]
  cases text.dropWhile cs.has <;> simp

theorem fault?_of_ascii (cs : Charset) {text : List Char} (h : text.all (·.toNat < 0x80) = true) :
    cs.fault? text = none :=
  cs.fault?_eq_none_iff.mpr fun c hc => cs.has_ascii c (of_decide_eq_true (List.all_eq_true.mp h c hc))

end Charset

/-! ## Saves that are too much to load -/

namespace Session

variable {s : Session} {document : Json} {fault : SessionFault} {room : Nat}

/-- The document is a save, and reading its story comes upon a volume that is too large. -/
def TooLoud (s : Session) (room : Nat) (document : Json) : Prop :=
  ∃ data story, SaveData.read document = .ok data ∧ data.story = some story ∧
    (History.ofSnapshotWithin room s.play.script.graph s.play.script.bound (.object story)).result =
      .error .volumeTooLarge ∧ History.Oversize s.play.script.bound (.object story)

/-- A story is taken over, or it is refused, or reading it fails for a reason that is none of the snapshot. -/
theorem takeOver_eq_error_iff {data : SaveData} {story : Json} :
    (s.takeOver data (s.play.restoreWithin room story)).result = .error fault ↔
      ∃ found, fault = .play (.restore found) ∧ Restoring.IsForeign found ∧
        (History.ofSnapshotWithin room s.play.script.graph s.play.script.bound story).result = .error found := by
  cases hread : (History.ofSnapshotWithin room s.play.script.graph s.play.script.bound story).result with
  | ok history =>
    have hconsistent := Play.ofSnapshot_consistent (History.ofSnapshot_of_within_eq_ok hread)
    have hfault := (Play.restoreFrom_of_ok hread (Play.fault?_eq_none hconsistent)).1
    simp [takeOver, Play.restoreWithin, hfault]
  | error found =>
    rw [Play.restoreWithin, Play.restoreFrom_of_error hread]
    cases found with
    | snapshot refusal => simp [takeOver, Play.refuse, Restoring.IsForeign]
    | _ => simp [takeOver, Play.refuse, Restoring.IsForeign, eq_comm]

/-- The story of a save that was read from a text is not refused for the length of its version. -/
theorem not_longVersion {room : Nat} {data : SaveData} {story : Assoc Json} (hdocument : document.Readable (room + 1))
    (hdata : SaveData.read document = .ok data) (hstory : data.story = some story) :
    ¬ History.LongVersion (.object story) := by
  obtain ⟨members, rfl, hof⟩ := SaveData.of_read hdata
  have hfield : Reading.field members "story" = .object story := by rw [hof.story, hstory, Option.elim_some]
  have hreadable : (Json.object story).Readable room := hfield ▸ Json.bounded_field hdocument "story"
  rintro ⟨found, version, hfound, hversion, huntold⟩
  obtain rfl := Json.object.inj hfound
  cases room with
  | zero => exact hreadable
  | succ room =>
    have htold : (Json.int version).Readable room := hversion ▸ Json.bounded_field hreadable "version"
    cases (Json.bounded_int.mp htold).symm.trans huntold

theorem loadBy_eq_error_iff (hroom : 1 ≤ s.play.script.bound) {depth : Nat}
    (hdocument : document.Readable (depth + 1)) :
    (s.loadBy (s.play.restoreWithin room) document).result = .error fault ↔
      fault = .play (.restore .volumeTooLarge) ∧ s.TooLoud room document ∨
        fault = .play (.restore .tooDeep) ∧ s.TooNested room document := by
  cases hdata : SaveData.read document with
  | error found => simp [loadBy, hdata, refuseLoad, TooLoud, TooNested]
  | ok data =>
    cases hstory : data.story with
    | none => simp [loadBy, hdata, hstory, refuseLoad, TooLoud, TooNested]
    | some story =>
      rw [loadBy_of_read hdata hstory, takeOver_eq_error_iff]
      constructor
      · rintro ⟨found, rfl, hforeign, hread⟩
        rcases History.of_ofSnapshotWithin_eq_error hroom hforeign hread with ⟨rfl, hover⟩ | ⟨_, hlong⟩ | ⟨rfl, hdeep⟩
        · exact .inl ⟨rfl, data, story, hdata, hstory, hread, hover⟩
        · exact absurd hlong (not_longVersion hdocument hdata hstory)
        · exact .inr ⟨rfl, data, story, hdata, hstory, hread, hdeep⟩
      · rintro (⟨rfl, other, found, hother, hfound, hread, _⟩ | ⟨rfl, other, found, hother, hfound, hread, _⟩)
        all_goals
          obtain rfl := Except.ok.inj (hdata.symm.trans hother)
          obtain rfl := Option.some.inj (hstory.symm.trans hfound)
          exact ⟨_, rfl, fun refusal hrefusal => RestoreFault.noConfusion hrefusal, hread⟩

theorem quickLoad_of_error {slot : Slot} {d : Disk} {found : DocumentFault}
    (h : d.readDocument slot.path = .error found) :
    (s.quickLoad slot d).result = if found.kind = .depth then .error (.document found) else .ok false := by
  rw [quickLoad, Slot.read, h]
  cases found with
  | disk fault =>
    cases fault with
    | nullCharacter => rfl
    | blocked trouble path => cases trouble <;> rfl
  | undecodable fault => rfl
  | unreadable text fault => cases fault <;> rfl

/-- A slot is loaded, or it is refused, or its document nests too deep, or the story in it is too loud or nests too
deep. -/
theorem quickLoad_eq_error_iff (hroom : 1 ≤ s.play.script.bound) {slot : Slot} {d : Disk} :
    (s.quickLoad slot d).result = .error fault ↔
      (∃ found, fault = .document found ∧ d.TooDeepAt slot.path found) ∨
        ∃ document, slot.read d = .ok (some document) ∧
          (fault = .play (.restore .volumeTooLarge) ∧ s.TooLoud d.room document ∨
            fault = .play (.restore .tooDeep) ∧ s.TooNested d.room document) := by
  simp only [← Disk.readDocument_depth_iff]
  cases hdocument : d.readDocument slot.path with
  | error found =>
    have hread : ∀ document, slot.read d ≠ .ok (some document) := by
      intro document h
      rw [Slot.read, hdocument] at h
      cases found with
      | disk fault =>
        dsimp only at h
        split at h <;> cases h
      | _ => cases h
    rw [quickLoad_of_error hdocument]
    by_cases hdepth : found.kind = .depth
    · simp [hdepth, hread, eq_comm]
    · simp [hdepth, hread]
  | ok document =>
    have hread : slot.read d = .ok (some document) := by rw [Slot.read, hdocument]
    have hreadable := Disk.readable_of_readDocument hdocument
    have hload : (s.quickLoad slot d).result = .error fault ↔
        (s.loadBy (s.play.restoreWithin d.room) document).result = .error fault := by
      cases document with
      | null => simp [quickLoad, hread, loadBy, SaveData.read, refuseLoad]
      | _ => rw [quickLoad, hread]
    rw [hload, loadBy_eq_error_iff hroom hreadable]
    simp [hread]

theorem quickLoad_session (slot : Slot) (d : Disk) : (s.quickLoad slot d).session = s ∨
    ∃ document, (s.quickLoad slot d).session = s.act (.load document) := by
  unfold quickLoad
  split
  · split <;> exact .inl rfl
  · exact .inl rfl
  · exact .inl rfl
  · rename_i document _ _
    rcases loadBy_restoreWithin_cases d.room document with hsame | ⟨_, _, hstops⟩
    · exact .inr ⟨document, congrArg SessionLoad.session hsame⟩
    · exact .inl (congrArg SessionLoad.session hstops)

end Session

namespace Console

variable {c now : Console} {typed : Typed} {ending : Ending}

/-! ## What ends the loop, and what is a command -/

/-- The loop ends at a line for what the line says. -/
inductive Ends (c : Console) (typed : Typed) : Ending → Prop where
  /-- The line says so. -/
  | quit (hword : Command.significant typed.line = ['q']) : Ends c typed .quit
  /-- The line is taken for the number of a choice, and is no number. -/
  | numeral {fault : Numeral.Fault} (hanswers : Command.Answers c.play.history.waiting (Command.significant typed.line))
      (hunreadable : Numeral.Unreadable (Command.significant typed.line))
      (hread : Numeral.read (Command.significant typed.line) = .error fault) : Ends c typed (.crashed (.numeral fault))
  /-- The line asks for a save that is too loud. -/
  | volume {document : Json} (hword : Command.significant typed.line = ['l'])
      (hread : c.slot.read c.disk = .ok (some document)) (hloud : c.session.TooLoud c.disk.room document) :
      Ends c typed (.crashed (.play (.restore .volumeTooLarge)))
  /-- The line asks for a save with too many choices and reactions inside each other. -/
  | choices {document : Json} (hword : Command.significant typed.line = ['l'])
      (hread : c.slot.read c.disk = .ok (some document)) (hnested : c.session.TooNested c.disk.room document) :
      Ends c typed (.crashed (.play (.restore .tooDeep)))
  /-- The line asks for a save that nests too deep. -/
  | depth {fault : DocumentFault} (hword : Command.significant typed.line = ['l'])
      (hdeep : c.disk.TooDeepAt c.slot.path fault) : Ends c typed (.crashed (.document fault))
  /-- The line asks for a save that is not the last one again, and no disk can have the slot. -/
  | path (hword : Command.significant typed.line = ['s'])
      (hnew : c.slot.lastWritten ≠ some (Slot.identityText (c.session.save typed.time)))
      (hnull : c.slot.HoldsNull c.disk) : Ends c typed (.crashed (.disk .nullCharacter))

/-- The loop ends at a line, on a screen: for what the line says, unless blocks are hidden, or because of a character
of the reply that the screen does not have. -/
inductive Stops (screen : Charset) (c : Console) (typed : Typed) : Ending → Prop where
  | said {ending : Ending} (hhidden : c.hidden = []) (h : c.Ends typed ending) : Stops screen c typed ending
  | unshown {fault : Charset.Fault} (h : (c.feed typed).outputs.findSome? (Output.fault? screen) = some fault) :
      Stops screen c typed (.crashed (.screen fault))

/-- The line is a command at present: one of the words, or the number of a pending choice. While blocks are hidden,
lines only ask for the next of them. -/
def Recognises (c : Console) (line : String) : Prop :=
  c.hidden = [] ∧ ((∃ command, Command.word? command = some (Command.significant line)) ∨
    ∃ n, Numeral.read (Command.significant line) = .ok n ∧ 1 ≤ n ∧ n ≤ c.play.pendingChoices.length)

/-! ## Replies to turns -/

theorem reveal_reply (blocks : List Block) :
    (c.reveal blocks).ending = none ∧ (c.reveal blocks).console.session = c.session := by
  cases blocks with
  | nil => exact ⟨rfl, rfl⟩
  | cons b bs =>
    rw [reveal]
    split <;> exact ⟨rfl, rfl⟩

theorem take_of_done {turn : Turn} (h : turn.fault = none) :
    (c.take turn).ending = none ∧ (c.take turn).console.session = { c.session with play := turn.play } := by
  rw [take]
  dsimp only
  rw [h]
  exact reveal_reply _

theorem take_of_noSuchChoice {turn : Turn} {index : Int} {node : Option String}
    (h : turn.fault = some (.noSuchChoice index node)) :
    (c.take turn).ending = none ∧ (c.take turn).console.session = c.session := by
  rw [take]
  dsimp only
  rw [h]
  exact ⟨rfl, rfl⟩

theorem goOn_reply (hp : c.session.play.Savable) :
    c.goOn.ending = none ∧ c.goOn.console.session = c.session.act (.play .begin) := by
  have hfault : c.play.begin.fault = none :=
    Play.begin_eq.2.2.trans (Play.advance_consistent hp.consistent).2
  exact take_of_done hfault

theorem answer_of_ok (hp : c.session.play.Savable) (hwaiting : c.play.history.waiting = true) {digits : List Char}
    {n : Nat} (hread : Numeral.read digits = .ok n) : (c.answer digits).ending = none ∧
      ((c.answer digits).console.session = c.session ∨
        (1 ≤ n ∧ n ≤ c.play.pendingChoices.length) ∧
          (c.answer digits).console.session = c.session.act (.play (.chooseIndex ((n : Int) - 1)))) := by
  simp only [answer, hread]
  cases hchoice : c.play.choiceAt ((n : Int) - 1) with
  | some choice =>
    have hfault : (c.play.chooseIndex ((n : Int) - 1)).fault = none := by
      rw [Play.chooseIndex_of_some hchoice]
      exact (Play.choose_consistent hp.consistent choice).2
    obtain ⟨hending, hsession⟩ := take_of_done (c := c) hfault
    refine ⟨hending, .inr ⟨?_, hsession⟩⟩
    unfold Play.choiceAt at hchoice
    split at hchoice
    · cases hchoice
    · obtain ⟨hlt, _⟩ := List.getElem?_eq_some_iff.mp hchoice
      omega
  | none =>
    have hrefuse := Play.chooseIndex_of_waiting hwaiting hchoice
    obtain ⟨hending, hsession⟩ := take_of_noSuchChoice (c := c) (congrArg Turn.fault hrefuse)
    exact ⟨hending, .inl hsession⟩

/-! ## Replies to lines -/

theorem save_session (time : String) : (c.save time).console.session = c.session := by
  cases hwrite : (c.slot.write (c.session.save time) c.disk).result with
  | ok written => simp [save, hwrite, keep]
  | error fault => cases fault <;> simp [save, hwrite, keep, crash]

theorem save_ending_iff (time : String) : (c.save time).ending = some ending ↔
    ending = .crashed (.disk .nullCharacter) ∧
      c.slot.lastWritten ≠ some (Slot.identityText (c.session.save time)) ∧ c.slot.HoldsNull c.disk := by
  rw [← Slot.write_eq_nullCharacter]
  cases hwrite : (c.slot.write (c.session.save time) c.disk).result with
  | ok written => simp [save, hwrite, keep]
  | error fault => cases fault <;> simp [save, hwrite, keep, crash, eq_comm]

theorem load_session : c.load.console.session = (c.session.quickLoad c.slot c.disk).session := by
  cases hload : (c.session.quickLoad c.slot c.disk).result with
  | ok loaded => cases loaded <;> simp [load, hload, keep]
  | error fault => simp [load, hload, crash]

theorem load_of_error {fault : SessionFault} (h : (c.session.quickLoad c.slot c.disk).result = .error fault) :
    c.load.ending = some (.crashed fault) ∧
      c.load.outputs = (c.session.quickLoad c.slot c.disk).events.map Event.output := by
  simp [load, h, crash]

theorem load_ending_iff_error : c.load.ending = some ending ↔
    ∃ fault, ending = .crashed fault ∧ (c.session.quickLoad c.slot c.disk).result = .error fault := by
  cases hload : (c.session.quickLoad c.slot c.disk).result with
  | ok loaded => cases loaded <;> simp [load, hload, keep]
  | error fault => simp [load, hload, crash, eq_comm]

theorem load_ending_iff (hp : c.session.play.Savable) : c.load.ending = some ending ↔
    (∃ found, ending = .crashed (.document found) ∧ c.disk.TooDeepAt c.slot.path found) ∨
      ∃ document, c.slot.read c.disk = .ok (some document) ∧
        (ending = .crashed (.play (.restore .volumeTooLarge)) ∧ c.session.TooLoud c.disk.room document ∨
          ending = .crashed (.play (.restore .tooDeep)) ∧ c.session.TooNested c.disk.room document) := by
  simp only [load_ending_iff_error, Session.quickLoad_eq_error_iff hp.room]
  constructor
  · rintro ⟨_, rfl, ⟨found, rfl, hdeep⟩ | ⟨document, hread, ⟨rfl, hloud⟩ | ⟨rfl, hnested⟩⟩⟩
    · exact .inl ⟨found, rfl, hdeep⟩
    · exact .inr ⟨document, hread, .inl ⟨rfl, hloud⟩⟩
    · exact .inr ⟨document, hread, .inr ⟨rfl, hnested⟩⟩
  · rintro (⟨found, rfl, hdeep⟩ | ⟨document, hread, ⟨rfl, hloud⟩ | ⟨rfl, hnested⟩⟩)
    · exact ⟨_, rfl, .inl ⟨found, rfl, hdeep⟩⟩
    · exact ⟨_, rfl, .inr ⟨document, hread, .inl ⟨rfl, hloud⟩⟩⟩
    · exact ⟨_, rfl, .inr ⟨document, hread, .inr ⟨rfl, hnested⟩⟩⟩

theorem feed_of_hidden_eq_nil (h : c.hidden = []) : c.feed typed =
    c.execute typed.time (.ofSignificant c.play.history.waiting (Command.significant typed.line)) := by
  rw [feed, h]
  rfl

theorem feed_of_hidden_ne_nil (h : c.hidden ≠ []) (typed : Typed) :
    (c.feed typed).ending = none ∧ (c.feed typed).console.session = c.session := by
  cases hhidden : c.hidden with
  | nil => exact absurd hhidden h
  | cons b bs =>
    rw [feed, hhidden]
    exact ⟨rfl, rfl⟩

theorem answer_of_error {digits : List Char} {fault : Numeral.Fault} (hread : Numeral.read digits = .error fault) :
    c.answer digits = c.crash (.numeral fault) [] := by
  rw [answer, hread]

theorem Ends.feed_ending (hp : c.session.play.Savable) (hhidden : c.hidden = []) (h : c.Ends typed ending) :
    (c.feed typed).ending = some ending := by
  rw [feed_of_hidden_eq_nil hhidden]
  cases h with
  | quit hword =>
    rw [hword]
    rfl
  | numeral hanswers _ hread =>
    rw [Command.ofSignificant_of_answers hanswers, execute, answer_of_error hread]
    rfl
  | volume hword hread hloud =>
    rw [hword]
    exact (load_ending_iff hp).mpr (.inr ⟨_, hread, .inl ⟨rfl, hloud⟩⟩)
  | choices hword hread hnested =>
    rw [hword]
    exact (load_ending_iff hp).mpr (.inr ⟨_, hread, .inr ⟨rfl, hnested⟩⟩)
  | depth hword hdeep =>
    rw [hword]
    exact (load_ending_iff hp).mpr (.inl ⟨_, rfl, hdeep⟩)
  | path hword hnew hnull =>
    rw [hword]
    exact (save_ending_iff typed.time).mpr ⟨rfl, hnew, hnull⟩

/-- What a reply to a line may be. It ends the loop only for one of the reasons there are. The session stays as it is
or becomes what one action makes of it, and the latter only if the line is a command. -/
structure Allows (c : Console) (typed : Typed) (reply : Reply) : Prop where
  ends : ∀ ending, reply.ending = some ending → c.hidden = [] ∧ c.Ends typed ending
  acts : reply.console.session = c.session ∨ c.Recognises typed.line ∧
    ∃ action : Session.Action, action.SetsScalars ∧ reply.console.session = c.session.act action

theorem Allows.idle {reply : Reply} (hending : reply.ending = none) (hsession : reply.console.session = c.session) :
    c.Allows typed reply := by
  refine ⟨?_, .inl hsession⟩
  intro ending h
  cases hending.symm.trans h

theorem Allows.acting {reply : Reply} (action : Session.Action) (hending : reply.ending = none)
    (hline : c.Recognises typed.line) (haction : action.SetsScalars)
    (hsession : reply.console.session = c.session.act action) : c.Allows typed reply := by
  refine ⟨?_, .inr ⟨hline, action, haction, hsession⟩⟩
  intro ending h
  cases hending.symm.trans h

theorem allows_load (hp : c.session.play.Savable) (hhidden : c.hidden = [])
    (hword : Command.significant typed.line = ['l']) : c.Allows typed c.load := by
  constructor
  case ends =>
    intro ending h
    rcases (load_ending_iff hp).mp h with
      ⟨found, rfl, hdeep⟩ | ⟨document, hread, ⟨rfl, hloud⟩ | ⟨rfl, hnested⟩⟩
    · exact ⟨hhidden, .depth hword hdeep⟩
    · exact ⟨hhidden, .volume hword hread hloud⟩
    · exact ⟨hhidden, .choices hword hread hnested⟩
  case acts =>
    rw [load_session]
    rcases Session.quickLoad_session (s := c.session) c.slot c.disk with hsame | ⟨document, hload⟩
    · exact .inl hsame
    · exact .inr ⟨⟨hhidden, .inl ⟨.load, congrArg some hword.symm⟩⟩, .load document, trivial, hload⟩

theorem allows_word (hp : c.session.play.Savable) (hhidden : c.hidden = []) {command : Command}
    (hword : command.word? = some (Command.significant typed.line)) :
    c.Allows typed (c.execute typed.time command) := by
  have hline : c.Recognises typed.line := ⟨hhidden, .inl ⟨command, hword⟩⟩
  cases command with
  | quit =>
    refine ⟨?_, .inl rfl⟩
    intro ending h
    obtain rfl := Option.some.inj h
    exact ⟨hhidden, .quit (Option.some.inj hword).symm⟩
  | save =>
    refine ⟨?_, .inl (save_session typed.time)⟩
    intro ending h
    obtain ⟨rfl, hnew, hnull⟩ := (save_ending_iff typed.time).mp h
    exact ⟨hhidden, .path (Option.some.inj hword).symm hnew hnull⟩
  | load => exact allows_load hp hhidden (Option.some.inj hword).symm
  | newGame => exact Allows.acting .newGame rfl hline trivial rfl
  | history => exact Allows.idle rfl rfl
  | goOn =>
    obtain ⟨hending, hsession⟩ := goOn_reply hp
    exact Allows.acting (.play .begin) hending hline trivial hsession
  | _ => cases hword

theorem allows_answer (hp : c.session.play.Savable) (hhidden : c.hidden = [])
    (hanswers : Command.Answers c.play.history.waiting (Command.significant typed.line)) :
    c.Allows typed (c.answer (Command.significant typed.line)) := by
  cases hread : Numeral.read (Command.significant typed.line) with
  | error fault =>
    have hunreadable := (Numeral.exists_read_eq_error_iff hanswers.ne_nil).mp ⟨fault, hread⟩
    rw [answer_of_error hread]
    refine ⟨?_, .inl rfl⟩
    intro ending h
    obtain rfl := Option.some.inj h
    exact ⟨hhidden, .numeral hanswers hunreadable hread⟩
  | ok n =>
    obtain ⟨hending, hsame | ⟨hrange, htaken⟩⟩ := answer_of_ok hp hanswers.waiting hread
    · exact Allows.idle hending hsame
    · have hline : c.Recognises typed.line := ⟨hhidden, .inr ⟨n, hread, hrange⟩⟩
      exact Allows.acting (.play (.chooseIndex ((n : Int) - 1))) hending hline trivial htaken

theorem allows_feed (hp : c.session.play.Savable) (typed : Typed) : c.Allows typed (c.feed typed) := by
  by_cases hhidden : c.hidden = []
  case neg =>
    -- Whatever the line says, it only asks for the next block.
    obtain ⟨hending, hsession⟩ := feed_of_hidden_ne_nil hhidden typed
    exact Allows.idle hending hsession
  rw [feed_of_hidden_eq_nil hhidden]
  rcases Command.ofSignificant_cases c.play.history.waiting (Command.significant typed.line) with
    ⟨command, hword, hcommand⟩ | ⟨hanswers, hcommand⟩ | hcommand
  · rw [hcommand]
    exact allows_word hp hhidden hword
  · rw [hcommand]
    exact allows_answer hp hhidden hanswers
  · rw [hcommand]
    exact Allows.idle rfl rfl

theorem savable_feed (hp : c.session.play.Savable) (typed : Typed) :
    (c.feed typed).console.session.play.Savable := by
  rcases (allows_feed hp typed).acts with hsame | ⟨_, action, haction, hsession⟩
  · rw [hsame]
    exact hp
  · rw [hsession]
    exact Session.savable_act hp haction

/-! ## Replies on a screen -/

theorem fits_events (screen : Charset) (events : List Event) :
    (events.map Event.output).findSome? (Output.fault? screen) = none := by
  rw [List.findSome?_eq_none_iff]
  intro output houtput
  obtain ⟨event, _, rfl⟩ := List.mem_map.mp houtput
  cases event with
  | begun => exact screen.fault?_of_ascii (by decide)
  | _ => rfl

theorem fits_notices (screen : Charset) (notices : List Notice) :
    (notices.map Output.notice).findSome? (Output.fault? screen) = none := by
  rw [List.findSome?_eq_none_iff]
  intro output houtput
  obtain ⟨notice, _, rfl⟩ := List.mem_map.mp houtput
  rfl

/-- Where the loop ends for what a line says, the reply fits on every screen. -/
theorem Ends.fits (screen : Charset) (hp : c.session.play.Savable) (hhidden : c.hidden = [])
    (h : c.Ends typed ending) : (c.feed typed).outputs.findSome? (Output.fault? screen) = none := by
  have hload : ∀ {ending}, c.load.ending = some ending → c.load.outputs.findSome? (Output.fault? screen) = none := by
    intro ending hending
    obtain ⟨fault, _, hfault⟩ := load_ending_iff_error.mp hending
    rw [(load_of_error hfault).2]
    exact fits_events screen _
  have hending := h.feed_ending hp hhidden
  rw [feed_of_hidden_eq_nil hhidden] at hending ⊢
  cases h with
  | quit hword =>
    rw [hword]
    have hbye : (say "Goodbye!").fault? screen = none := screen.fault?_of_ascii (by decide)
    exact List.findSome?_eq_none_iff.mpr (List.forall_mem_singleton.mpr hbye)
  | numeral hanswers _ hread =>
    rw [Command.ofSignificant_of_answers hanswers, execute, answer_of_error hread]
    rfl
  | volume hword _ _ =>
    rw [hword] at hending ⊢
    exact hload hending
  | choices hword _ _ =>
    rw [hword] at hending ⊢
    exact hload hending
  | depth hword _ =>
    rw [hword] at hending ⊢
    exact hload hending
  | path hword hnew hnull =>
    rw [hword]
    have hwrite := Slot.write_eq_nullCharacter.mpr ⟨hnew, hnull⟩
    have hsave : (c.save typed.time).outputs =
        (c.slot.write (c.session.save typed.time) c.disk).notices.map Output.notice := by
      simp only [save, hwrite, crash]
    exact (congrArg (List.findSome? (Output.fault? screen)) hsave).trans (fits_notices screen _)

def after? (c : Console) : List Typed → Option Console
  | [] => some c
  | typed :: rest =>
    match (c.feed typed).ending with
    | some _ => none
    | none => (c.feed typed).console.after? rest

theorem after?_cons_eq_some {rest : List Typed} : c.after? (typed :: rest) = some now ↔
    (c.feed typed).ending = none ∧ (c.feed typed).console.after? rest = some now := by
  rw [after?]
  split
  · rename_i hending
    simp [hending]
  · rename_i hending
    simp [hending]

theorem after?_induction {P : Console → Prop} (hc : P c) (hstep : ∀ c typed, P c → P (c.feed typed).console)
    {lines : List Typed} (h : c.after? lines = some now) : P now := by
  induction lines generalizing c with
  | nil => exact Option.some.inj h ▸ hc
  | cons typed rest ih => exact ih (hstep c typed hc) (after?_cons_eq_some.mp h).2

/-- The console to which some lines lead on a screen: whatever is put out before each of them and in reply to it can
be written, and none of them ends the loop. -/
inductive LeadsTo (screen : Charset) (now : Console) : Console → List Typed → Prop where
  | here : LeadsTo screen now now []
  | line {c : Console} {typed : Typed} {rest : List Typed} (hprompt : c.prompt.fault? screen = none)
      (hending : ((c.feed typed).on screen).ending = none) (hrest : LeadsTo screen now (c.feed typed).console rest) :
      LeadsTo screen now c (typed :: rest)

/-- How a run over some lines ends on a screen: there are no more of them, or what stands before a line cannot be
written, or a line ends it. -/
inductive RunEnds (screen : Charset) (c : Console) (lines : List Typed) : Ending → Prop where
  | inputEnded {now : Console} (h : LeadsTo screen now c lines) (hprompt : now.prompt.fault? screen = none) :
      RunEnds screen c lines .inputEnded
  | unshown {before rest : List Typed} {now : Console} {fault : Charset.Fault} (hlines : lines = before ++ rest)
      (h : LeadsTo screen now c before) (hprompt : now.prompt.fault? screen = some fault) :
      RunEnds screen c lines (.crashed (.screen fault))
  | line {before rest : List Typed} {typed : Typed} {now : Console} {ending : Ending}
      (hlines : lines = before ++ typed :: rest) (h : LeadsTo screen now c before)
      (hprompt : now.prompt.fault? screen = none) (hstops : now.Stops screen typed ending) :
      RunEnds screen c lines ending

theorem ending_eq_none_of_on {reply : Reply} {screen : Charset} (h : (reply.on screen).ending = none) :
    reply.ending = none := by
  rw [Reply.on] at h
  split at h
  · exact h
  · cases h

theorem LeadsTo.after? {screen : Charset} {lines : List Typed} (h : LeadsTo screen now c lines) :
    c.after? lines = some now := by
  induction h with
  | here => rfl
  | line _ hending _ ih => exact after?_cons_eq_some.mpr ⟨ending_eq_none_of_on hending, ih⟩

theorem RunEnds.cons {screen : Charset} {rest : List Typed} (hprompt : c.prompt.fault? screen = none)
    (hending : ((c.feed typed).on screen).ending = none) (h : (c.feed typed).console.RunEnds screen rest ending) :
    c.RunEnds screen (typed :: rest) ending := by
  cases h with
  | inputEnded h hend => exact .inputEnded (.line hprompt hending h) hend
  | unshown hlines h hfault => exact .unshown (congrArg (typed :: ·) hlines) (.line hprompt hending h) hfault
  | line hlines h hend hstops => exact .line (congrArg (typed :: ·) hlines) (.line hprompt hending h) hend hstops

end Console

namespace Console

variable {c : Console}

end Console

namespace Console

end Console
end BranchingStory
