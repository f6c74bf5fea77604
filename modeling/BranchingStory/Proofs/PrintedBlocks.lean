import BranchingStory.Proofs.ConsoleRuns
import BranchingStory.Proofs.Effects

/-!
# What the console prints of a story

After a command that the story accepts, the console prints the blocks of the history that were not in it
before. A story may show the same block again, so it is not by their values that blocks are old or new: the
entries of the history are numbered here, old ones before those that the operation adds, and the new
entries are what is left of these once the history is within its bound again. That is all that was shown,
unless it is more than the history holds; then the first of it are gone before anything is printed.

What has been printed and what is still hidden is together, in order, what was new after the accepted
commands so far. Every line keeps this, so no block is printed twice for having been shown once, except in
the two listings of the whole history.
-/

namespace BranchingStory

/-- Of a list with a first part that some property fails of and a second that it holds of, the bound keeps
of the second part as much as of that part alone. -/
theorem filter_latest_append {α : Type} {P : α → Bool} {old new : List α} (hold : ∀ a ∈ old, P a = false)
    (hnew : ∀ a ∈ new, P a = true) (bound : Nat) :
    (latest bound (old ++ new)).filter P = latest bound new := by
  have hdropped : (old.drop ((old ++ new).length - bound)).filter P = [] := by
    rw [List.filter_eq_nil_iff]
    intro a ha
    rw [hold a (List.mem_of_mem_drop ha)]
    exact Bool.false_ne_true
  have hkept : (new.drop ((old ++ new).length - bound - old.length)).filter P =
      new.drop ((old ++ new).length - bound - old.length) :=
    List.filter_eq_self.mpr fun a ha => hnew a (List.mem_of_mem_drop ha)
  have hcount : (old ++ new).length - bound - old.length = new.length - bound := by
    rw [List.length_append]
    omega
  rw [latest, List.drop_append, List.filter_append, hdropped, hkept, List.nil_append, hcount, latest]

namespace Play

variable (p : Play)

/-! ## New entries of the history -/

/-- The id of the prompt that an operation answers, if it takes a choice. -/
def answeredId (operation : Operation) : Option String :=
  if (p.taken operation).isSome then p.node?.bind fun prompt => nonEmpty? prompt.id else none

/-- The entries of the history after an operation. Those before it are numbered from zero and those that it
adds are numbered on, so that equal blocks are told apart. -/
def entriesAfter (operation : Operation) : List (Block × Nat) :=
  let old := p.history.blocks.zipIdx
  let kept := (p.answeredId operation).elim old fun id => old.eraseP fun entry => entry.1.id == some id
  latest p.history.bound (kept ++ (p.shows operation).zipIdx p.history.blocks.length)

/-- An entry that was not in the history before. -/
def isNew (entry : Block × Nat) : Bool := p.history.blocks.length ≤ entry.2

variable {p}

theorem cleared_blocks (operation : Operation) : (p.cleared operation).blocks =
    (p.answeredId operation).elim p.history.blocks fun id => p.history.blocks.eraseP fun b => b.id == some id := by
  rw [cleared, answeredId]
  split
  · rw [answered]
    cases p.node? with
    | none => rfl
    | some prompt =>
      dsimp only [Option.elim, Option.bind, History.removeFirst]
      cases nonEmpty? prompt.id <;> rfl
  · rfl

theorem taken_of_shows_eq_nil {operation : Operation} (h : p.shows operation = []) : p.taken operation = none := by
  cases htaken : p.taken operation with
  | none => rfl
  | some choice =>
    rw [shows_eq_map, displays_of_taken htaken] at h
    cases h

theorem entriesAfter_map_fst (operation : Operation) : (p.entriesAfter operation).map Prod.fst =
    latest p.history.bound ((p.cleared operation).blocks ++ p.shows operation) := by
  have hkept : ((p.answeredId operation).elim p.history.blocks.zipIdx fun id =>
      p.history.blocks.zipIdx.eraseP fun entry => entry.1.id == some id).map Prod.fst =
        (p.cleared operation).blocks := by
    rw [cleared_blocks]
    cases p.answeredId operation with
    | none => exact List.zipIdx_map_fst 0 _
    | some id =>
      have herase := List.eraseP_map (p := fun b : Block => b.id == some id) (f := Prod.fst)
        (l := p.history.blocks.zipIdx)
      rw [List.zipIdx_map_fst] at herase
      exact herase.symm
  rw [entriesAfter, ← latest_map, List.map_append, hkept, List.zipIdx_map_fst]

theorem entriesAfter_blocks {operation : Operation} (hmove : operation.isMove = true)
    (hbounded : p.history.blocks.length ≤ p.history.bound) :
    (p.entriesAfter operation).map Prod.fst = (p.perform operation).play.history.blocks := by
  rw [entriesAfter_map_fst]
  rcases perform_blocks_of_isMove hmove with ⟨hshown, hblocks⟩ | ⟨_, hblocks⟩
  · rw [hblocks, shows, hshown, cleared, taken_of_shows_eq_nil hshown, List.append_nil]
    exact latest_eq_self hbounded
  · exact hblocks.symm

/-- What is new in the history after an operation is what it shows, as far as there is room for it. -/
theorem entriesAfter_new (operation : Operation) :
    ((p.entriesAfter operation).filter p.isNew).map Prod.fst = latest p.history.bound (p.shows operation) := by
  have hold : ∀ entry ∈ (p.answeredId operation).elim p.history.blocks.zipIdx fun id =>
      p.history.blocks.zipIdx.eraseP fun entry => entry.1.id == some id, p.isNew entry = false := by
    intro entry hentry
    have hmem : entry ∈ p.history.blocks.zipIdx := by
      cases hid : p.answeredId operation with
      | none =>
        rw [hid] at hentry
        exact hentry
      | some id =>
        rw [hid] at hentry
        exact List.mem_of_mem_eraseP hentry
    have hlt := List.snd_lt_add_of_mem_zipIdx hmem
    exact decide_eq_false (by omega)
  have hnew : ∀ entry ∈ (p.shows operation).zipIdx p.history.blocks.length, p.isNew entry = true :=
    fun entry hentry => decide_eq_true (List.le_snd_of_mem_zipIdx hentry)
  rw [entriesAfter, filter_latest_append hold hnew, ← latest_map, List.zipIdx_map_fst]

theorem advance_answered : p.advance.answered = none := by
  have hrender : ∀ n, (p.render n).answered = none := by
    intro n
    unfold render
    dsimp only [Turn.checked]
    split_ifs <;> rfl
  unfold advance
  cases p.history.current with
  | none => rfl
  | some position =>
    cases p.history.waiting with
    | true => rfl
    | false =>
      cases p.node? with
      | none => rfl
      | some here =>
        cases hshow : (p.nextToShow here).value with
        | none => simp [hshow]
        | some n => simpa [hshow] using hrender n

theorem perform_answered {operation : Operation} (hmove : operation.isMove = true) :
    (p.perform operation).answered = p.answeredId operation := by
  cases operation with
  | begin =>
    rw [perform, begin]
    split <;> exact advance_answered
  | advance => exact advance_answered
  | chooseIndex index =>
    rw [perform, answeredId, taken]
    cases hchoice : p.choiceAt index with
    | none =>
      obtain ⟨fault, hrefuse, _⟩ := chooseIndex_of_none hchoice
      rw [hrefuse]
      rfl
    | some choice =>
      rw [chooseIndex_of_some hchoice]
      simp [choose, waiting_of_choiceAt hchoice, Turn.checked]
  | _ => cases hmove

theorem perform_bound_of_isMove {operation : Operation} (hmove : operation.isMove = true) :
    (p.perform operation).play.history.bound = p.history.bound := by
  have hadvance : p.advance.play.history.bound = p.history.bound :=
    advance_induction (P := fun q => q.history.bound = p.history.bound) rfl rfl fun n _ => by simp [rendered]
  cases operation with
  | begin =>
    rw [perform, begin_eq.1]
    exact hadvance
  | advance => exact hadvance
  | chooseIndex index =>
    rw [perform]
    cases hchoice : p.choiceAt index with
    | none =>
      obtain ⟨fault, hrefuse, _⟩ := chooseIndex_of_none hchoice
      rw [hrefuse]
      rfl
    | some choice =>
      rw [chooseIndex_of_some hchoice]
      exact choose_induction (P := fun q => q.history.bound = p.history.bound) choice rfl (by simp [chosen])
  | _ => cases hmove

theorem entries_perform {operation : Operation} (hmove : operation.isMove = true) :
    (p.perform operation).entries p.history.blocks = p.entriesAfter operation := by
  rw [Turn.entries, entriesAfter, shows, perform_answered hmove, perform_bound_of_isMove hmove]

theorem isNew_eq (entry : Block × Nat) :
    p.isNew entry = !p.history.blocks.zipIdx.any fun old => entry.2 == old.2 := by
  have hold : (p.history.blocks.zipIdx.any fun old => entry.2 == old.2) = true ↔
      entry.2 < p.history.blocks.length := by
    rw [List.any_eq_true]
    constructor
    · rintro ⟨old, hmem, hsame⟩
      have hlt := List.snd_lt_add_of_mem_zipIdx hmem
      rw [eq_of_beq hsame]
      omega
    · intro hlt
      exact ⟨(p.history.blocks[entry.2], entry.2), List.mem_zipIdx_iff_getElem?.mpr (List.getElem?_eq_getElem hlt),
        beq_self_eq_true entry.2⟩
  rw [isNew, Bool.eq_iff_iff, Bool.not_eq_true', ← Bool.not_eq_true, hold, decide_eq_true_iff, Nat.not_lt]

/-- The blocks that the console takes for new are the new ones. -/
theorem freshBlocks_perform {operation : Operation} (hmove : operation.isMove = true) :
    Console.freshBlocks p.history.blocks (p.perform operation) = latest p.history.bound (p.shows operation) := by
  rw [← entriesAfter_new, Console.freshBlocks, entries_perform hmove, ← funext isNew_eq]

end Play

/-- What is put out is a notice or one of the words of the loop. No block is shown by it. -/
def Console.IsWord (c : Console) : Output → Prop
  | .notice _ => True
  | .text s => s ∈ (["\n~ The story begins ~\n", "Goodbye!", "Saved.", "Save failed.", "Load failed.",
      "Started a new story.", c.rangeText, "Unknown command."].map Screen.printed)

namespace Console

variable (c : Console)

/-! ## Accepted commands -/

/-- The operation that a line asks for, if it asks to go on with the story or for a choice. -/
def asked? (line : String) : Option Operation :=
  match c.hidden with
  | _ :: _ => none
  | [] =>
    match Command.ofLine c.play.history.waiting line with
    | .goOn => some .begin
    | .answer digits => (Numeral.read digits).toOption.map fun n : Nat => .chooseIndex ((n : Int) - 1)
    | _ => none

/-- The operation of a line, if the story accepts it. -/
def accepted? (line : String) : Option Operation :=
  (c.asked? line).filter fun operation => (c.play.perform operation).fault.isNone

def rendered (typed : Typed) : List Block :=
  (c.accepted? typed.line).elim [] fun operation => latest c.play.history.bound (c.play.shows operation)

def shownAtOnce (blocks : List Block) : List Block := if c.stepwise then blocks.take 1 else blocks

def heldBack (blocks : List Block) : List Block := if c.stepwise then blocks.drop 1 else []

/-- The blocks that a line makes visible: the next one that is hidden, or what is shown at once of those
that come into the history. -/
def unveiled (typed : Typed) : List Block :=
  match c.hidden with
  | b :: _ => [b]
  | [] => c.shownAtOnce (c.rendered typed)

def along {α : Type} (c : Console) (give : Console → Typed → List α) : List Typed → List α
  | [] => []
  | typed :: rest => give c typed ++ (c.feed typed).console.along give rest

/-- Blocks after an empty line; nothing if there are none. -/
def apart (blocks : List Block) : List Output := if blocks.isEmpty then [] else say "" :: c.blockOutputs blocks

variable {c} {typed : Typed}

theorem shownAtOnce_append_heldBack (blocks : List Block) : c.shownAtOnce blocks ++ c.heldBack blocks = blocks := by
  unfold shownAtOnce heldBack
  split
  · exact List.take_append_drop 1 blocks
  · exact List.append_nil blocks

theorem unveiled_of_eq_nil (h : c.hidden = []) : c.unveiled typed = c.shownAtOnce (c.rendered typed) := by
  rw [unveiled, h]

theorem reveal_eq (hhidden : c.hidden = []) (blocks : List Block) : c.reveal blocks =
    { console := { c with hidden := c.heldBack blocks }, outputs := c.apart (c.shownAtOnce blocks) } := by
  obtain ⟨session, slot, disk, stepwise, showsIds, hidden⟩ := c
  obtain rfl : hidden = [] := hhidden
  cases blocks <;> cases stepwise <;> rfl

theorem asked?_of_hidden (h : c.hidden ≠ []) (line : String) : c.asked? line = none := by
  obtain ⟨b, bs, hhidden⟩ := List.exists_cons_of_ne_nil h
  rw [asked?, hhidden]

theorem asked?_of_eq_nil (h : c.hidden = []) (line : String) : c.asked? line =
    match Command.ofLine c.play.history.waiting line with
    | .goOn => some .begin
    | .answer digits => (Numeral.read digits).toOption.map fun n : Nat => .chooseIndex ((n : Int) - 1)
    | _ => none := by
  rw [asked?, h]

/-- What a line asks for is a move, and the reply to the line is the reply to that move. -/
theorem feed_of_asked? {operation : Operation} (h : c.asked? typed.line = some operation) :
    c.hidden = [] ∧ operation.isMove = true ∧ c.feed typed = c.take (c.play.perform operation) := by
  have hhidden : c.hidden = [] := by
    by_contra hne
    rw [asked?_of_hidden hne] at h
    cases h
  rw [asked?_of_eq_nil hhidden] at h
  rw [feed, hhidden]
  dsimp only
  cases hcommand : Command.ofLine c.play.history.waiting typed.line with
  | goOn =>
    rw [hcommand] at h
    obtain rfl := Option.some.inj h
    exact ⟨rfl, rfl, rfl⟩
  | answer digits =>
    rw [hcommand] at h
    obtain ⟨n, hread, rfl⟩ := Attempt.exists_of_map_toOption h
    refine ⟨rfl, rfl, ?_⟩
    rw [execute, answer, hread]
    rfl
  | _ =>
    rw [hcommand] at h
    cases h

theorem accepted?_eq_some {line : String} {operation : Operation} : c.accepted? line = some operation ↔
    c.asked? line = some operation ∧ (c.play.perform operation).fault = none := by
  rw [accepted?, Option.filter_eq_some_iff, Option.isNone_iff_eq_none]

theorem feed_of_accepted? {operation : Operation} (h : c.accepted? typed.line = some operation) :
    c.hidden = [] ∧ c.rendered typed = latest c.play.history.bound (c.play.shows operation) ∧ c.feed typed =
      { console := { c.withPlay (c.play.perform operation).play with hidden := c.heldBack (c.rendered typed) }
        outputs := (c.play.perform operation).events.map Event.output ++
          (c.withPlay (c.play.perform operation).play).apart (c.unveiled typed) } := by
  obtain ⟨hasked, hfault⟩ := accepted?_eq_some.mp h
  obtain ⟨hhidden, hmove, hfeed⟩ := feed_of_asked? hasked
  have hrendered : c.rendered typed = latest c.play.history.bound (c.play.shows operation) := by
    rw [rendered, h]
    rfl
  have hnone : (c.withPlay (c.play.perform operation).play).hidden = [] := hhidden
  refine ⟨hhidden, hrendered, ?_⟩
  rw [hfeed, take, hfault]
  dsimp only
  rw [reveal_eq hnone, Play.freshBlocks_perform hmove, ← hrendered, unveiled_of_eq_nil hhidden]
  rfl

theorem feed_of_hidden {b : Block} {bs : List Block} (h : c.hidden = b :: bs) (typed : Typed) :
    c.unveiled typed = [b] ∧ c.rendered typed = [] ∧
      c.feed typed = { c with hidden := bs }.keep (c.blockOutputs [b]) := by
  have hasked : c.asked? typed.line = none := asked?_of_hidden (h ▸ List.cons_ne_nil b bs) typed.line
  refine ⟨?_, ?_, ?_⟩
  · rw [unveiled, h]
  · rw [rendered, accepted?, hasked]
    rfl
  · rw [feed, h]

/-! ## Other lines -/

theorem isWord_output (event : Event) : c.IsWord event.output := by
  cases event with
  | begun => exact List.mem_cons_self
  | _ => trivial

/-- The reply puts out words only, and hides what was hidden. -/
structure Wordy (c : Console) (reply : Reply) : Prop where
  hidden : reply.console.hidden = c.hidden
  words : ∀ output ∈ reply.outputs, c.IsWord output

theorem isWord_events {events : List Event} : ∀ output ∈ events.map Event.output, c.IsWord output := by
  intro output houtput
  obtain ⟨event, _, rfl⟩ := List.mem_map.mp houtput
  exact isWord_output event

theorem wordy_take {turn : Turn} {fault : PlayFault} (h : turn.fault = some fault) : c.Wordy (c.take turn) := by
  rw [take, h]
  cases fault with
  | noSuchChoice index node =>
    refine ⟨rfl, List.forall_mem_append.mpr ⟨isWord_events, ?_⟩⟩
    simp [IsWord, say]
  | _ => exact ⟨rfl, isWord_events⟩

theorem wordy_save (time : String) : c.Wordy (c.save time) := by
  have hnotices : ∀ notices : List Notice, ∀ output ∈ notices.map Output.notice, c.IsWord output := by
    intro notices output houtput
    obtain ⟨notice, _, rfl⟩ := List.mem_map.mp houtput
    trivial
  rw [save]
  split
  · refine ⟨rfl, List.forall_mem_append.mpr ⟨hnotices _, ?_⟩⟩
    simp [IsWord, say]
  · exact ⟨rfl, hnotices _⟩
  · refine ⟨rfl, List.forall_mem_append.mpr ⟨hnotices _, ?_⟩⟩
    simp [IsWord, say]

theorem wordy_load (h : (c.session.quickLoad c.slot c.disk).result ≠ .ok true) : c.Wordy c.load := by
  rw [load]
  split
  · rename_i hload
    exact absurd hload h
  · refine ⟨rfl, List.forall_mem_append.mpr ⟨isWord_events, ?_⟩⟩
    simp [IsWord, say]
  · exact ⟨rfl, isWord_events⟩

theorem wordy_newGame : c.Wordy c.newGame := by
  refine ⟨rfl, List.forall_mem_append.mpr ⟨isWord_events, ?_⟩⟩
  simp [IsWord, say]

theorem feed_of_not_accepted (hhidden : c.hidden = []) (h : c.accepted? typed.line = none) :
    c.Wordy (c.feed typed) ∨
      Command.significant typed.line = ['h'] ∧ c.feed typed = c.showHistory ∨
      Command.significant typed.line = ['l'] ∧ (c.session.quickLoad c.slot c.disk).result = .ok true ∧
        c.feed typed = c.load := by
  have hrefused : ∀ operation, c.asked? typed.line = some operation → c.Wordy (c.feed typed) := by
    intro operation hasked
    obtain ⟨_, _, hfeed⟩ := feed_of_asked? hasked
    cases hfault : (c.play.perform operation).fault with
    | none => exact absurd (accepted?_eq_some.mpr ⟨hasked, hfault⟩) (by simp [h])
    | some fault =>
      rw [hfeed]
      exact wordy_take hfault
  have hasked := asked?_of_eq_nil hhidden typed.line
  have hfeed : c.feed typed = _ := feed_of_hidden_eq_nil hhidden
  rw [Command.ofLine] at hasked
  rcases Command.ofSignificant_cases c.play.history.waiting (Command.significant typed.line) with
    ⟨command, hword, hcommand⟩ | ⟨_, hcommand⟩ | hcommand
  · rw [hcommand] at hasked hfeed
    cases command with
    | quit =>
      rw [hfeed]
      exact .inl ⟨rfl, by simp [execute, IsWord, say]⟩
    | save =>
      rw [hfeed]
      exact .inl (wordy_save typed.time)
    | load =>
      by_cases hload : (c.session.quickLoad c.slot c.disk).result = .ok true
      · exact .inr (.inr ⟨(Option.some.inj hword).symm, hload, hfeed⟩)
      · rw [hfeed]
        exact .inl (wordy_load hload)
    | newGame =>
      rw [hfeed]
      exact .inl wordy_newGame
    | history => exact .inr (.inl ⟨(Option.some.inj hword).symm, hfeed⟩)
    | goOn => exact .inl (hrefused .begin hasked)
    | _ => cases hword
  · rw [hcommand] at hasked hfeed
    dsimp only at hasked
    cases hread : Numeral.read (Command.significant typed.line) with
    | ok n =>
      rw [hread] at hasked
      exact .inl (hrefused (.chooseIndex ((n : Int) - 1)) hasked)
    | error fault =>
      rw [hfeed, execute, answer_of_error hread]
      exact .inl ⟨rfl, fun output houtput => absurd houtput List.not_mem_nil⟩
  · rw [hfeed, hcommand]
    exact .inl ⟨rfl, by simp [execute, keep, IsWord, say]⟩

theorem hidden_of_not_accepted (hhidden : c.hidden = []) (h : c.accepted? typed.line = none) :
    (c.feed typed).console.hidden = [] := by
  rcases feed_of_not_accepted hhidden h with hwordy | ⟨_, hfeed⟩ | ⟨_, _, hfeed⟩
  · exact hwordy.hidden.trans hhidden
  · rw [hfeed]
    exact hhidden
  · rw [hfeed, load]
    split <;> exact hhidden

/-! ## Runs -/

/-- A line shows from the front of what is hidden and of what it brings, and what it does not show stays
hidden. -/
theorem unveiled_append_hidden (c : Console) (typed : Typed) :
    c.unveiled typed ++ (c.feed typed).console.hidden = c.hidden ++ c.rendered typed := by
  cases hhidden : c.hidden with
  | cons b bs =>
    obtain ⟨hunveiled, hrendered, hfeed⟩ := feed_of_hidden hhidden typed
    rw [hunveiled, hrendered, hfeed, List.append_nil]
    rfl
  | nil =>
    cases haccepted : c.accepted? typed.line with
    | some operation =>
      obtain ⟨_, _, hfeed⟩ := feed_of_accepted? haccepted
      rw [hfeed, unveiled_of_eq_nil hhidden]
      exact shownAtOnce_append_heldBack (c.rendered typed)
    | none =>
      have hrendered : c.rendered typed = [] := by
        rw [rendered, haccepted]
        rfl
      rw [hidden_of_not_accepted hhidden haccepted, unveiled_of_eq_nil hhidden, hrendered]
      exact congrArg (· ++ []) (ite_self [])

theorem along_unveiled {now : Console} {lines : List Typed} (h : c.after? lines = some now) :
    c.along unveiled lines ++ now.hidden = c.hidden ++ c.along rendered lines := by
  induction lines generalizing c with
  | nil =>
    obtain rfl := Option.some.inj h
    exact (List.append_nil _).symm
  | cons typed rest ih =>
    obtain ⟨_, hrest⟩ := after?_cons_eq_some.mp h
    rw [along, along, List.append_assoc, ih hrest, ← List.append_assoc, unveiled_append_hidden,
      List.append_assoc]

theorem bound_of_after? {now : Console} {lines : List Typed} (hc : c.session.play.Savable)
    (hafter : c.after? lines = some now) :
    now.play.history.bound = c.play.script.bound.toNat ∧
      now.play.history.blocks.length ≤ now.play.history.bound := by
  have hnow : now.session.play.Savable ∧ now.session.play.script = c.session.play.script := by
    refine after?_induction
      (P := fun d => d.session.play.Savable ∧ d.session.play.script = c.session.play.script) ⟨hc, rfl⟩ ?_ hafter
    rintro d typed ⟨hp, hscript⟩
    refine ⟨savable_feed hp typed, ?_⟩
    rcases (allows_feed hp typed).acts with hsame | ⟨_, action, _, hsession⟩
    · rw [hsame, hscript]
    · rw [hsession, Session.act_script, hscript]
  refine ⟨?_, hnow.1.consistent.bounded⟩
  rw [play, play, hnow.1.bound, hnow.2]

/-- Take any new session, whatever is then done with it, and any lines. What has been shown so far and what
is still hidden is together, in order, what was new after the accepted commands. After each of them the last
blocks that the story displays are new, as many as the history keeps and all of them unless they are more:
the player's line, the reactions and the node that follows, or the one node that is shown by going on. They
are the entries of the history that were not in it before, and they are put out behind what is told of the
turn, or the first of them in a console that shows them one by one. A line that is read in between puts out
the next block, and all other lines put out no block unless they list the history. -/
theorem run_prints_new_blocks {script : Script} {flags : FlagValues} {items held notes unlocked : List String}
    {s : Session} {now : Console}
    (hmake : Play.make script (World.make (.ofValues flags) items held notes unlocked).value none = .ok s.play)
    {actions : List Session.Action} (hactions : ∀ action ∈ actions, action.SetsScalars)
    (hc : c.session = s.actAll actions) (hhidden : c.hidden = []) {lines : List Typed}
    (hafter : c.after? lines = some now) :
    c.along unveiled lines ++ now.hidden = c.along rendered lines ∧
    (∀ typed operation, now.accepted? typed.line = some operation →
      now.rendered typed = latest script.bound.toNat (now.play.turnBlocks operation) ∧
      ((now.play.turnBlocks operation).length ≤ script.bound.toNat →
        now.rendered typed = now.play.turnBlocks operation) ∧
      ((now.play.entriesAfter operation).filter now.play.isNew).map Prod.fst = now.rendered typed ∧
      (now.play.entriesAfter operation).map Prod.fst = (now.feed typed).console.play.history.blocks ∧
      (now.feed typed).ending = none ∧
      (now.feed typed).outputs = (now.play.perform operation).events.map Event.output ++
        (now.withPlay (now.play.perform operation).play).apart (now.unveiled typed)) ∧
    (∀ typed, now.hidden ≠ [] → (now.feed typed).outputs = now.blockOutputs (now.unveiled typed)) ∧
    (∀ typed, now.hidden = [] → now.accepted? typed.line = none →
      now.Wordy (now.feed typed) ∨
        Command.significant typed.line = ['h'] ∧ now.feed typed = now.showHistory ∨
        Command.significant typed.line = ['l'] ∧ (now.session.quickLoad now.slot now.disk).result = .ok true ∧
          now.feed typed = now.load) := by
  have hscript : c.play.script = script := by
    rw [play, hc, Session.actAll_script]
    exact (Play.make_consistent (fun h hh => absurd hh.symm (Option.some_ne_none h)) hmake).1
  have hsavable : c.session.play.Savable := hc ▸ Session.savable_actAll (.make hmake) hactions
  obtain ⟨hroom, hbounded⟩ := bound_of_after? hsavable hafter
  rw [hscript] at hroom
  refine ⟨?run, ?accepted, ?reveals, fun typed => feed_of_not_accepted⟩
  case run =>
    rw [along_unveiled hafter, hhidden, List.nil_append]
  case accepted =>
    intro typed operation haccepted
    obtain ⟨_, hrendered, hfeed⟩ := feed_of_accepted? haccepted
    obtain ⟨_, hmove, _⟩ := feed_of_asked? (accepted?_eq_some.mp haccepted).1
    have hblocks : now.rendered typed = latest script.bound.toNat (now.play.turnBlocks operation) := by
      rw [hrendered, hroom, Play.shows, Play.perform_shown]
    refine ⟨hblocks, fun hfits => hblocks.trans (latest_eq_self hfits), ?_, ?_, ?_, ?_⟩
    · rw [hrendered, Play.entriesAfter_new]
    · rw [hfeed]
      exact Play.entriesAfter_blocks hmove hbounded
    · rw [hfeed]
    · rw [hfeed]
  case reveals =>
    intro typed hne
    obtain ⟨b, bs, hcons⟩ := List.exists_cons_of_ne_nil hne
    obtain ⟨hunveiled, _, hfeed⟩ := feed_of_hidden hcons typed
    rw [hfeed, hunveiled]
    rfl

/-- A story on a stage. Bowing is answered by ten claps. -/
def stageScript : Script :=
  { graph :=
      { nodes :=
          [{ id := some "stage", kind := .dialogueChoice, text := .single "And now?",
             choices :=
               [{ text := "Bow"
                  reactions := List.replicate 10 { kind := .singleParagraph, text := .single "Clap." } }] }] } }

def stageSession : Session :=
  { play :=
      { script := stageScript
        history := ⟨some "stage", [], false, 10⟩
        world := { items := { kind := .items }, notes := { kind := .notes } } } }

def onStage (stepwise : Bool) : Console :=
  { session := stageSession, slot := { directory := {} }, disk := {}, stepwise }

/-- Someone goes on and bows, and whatever is typed then asks for more. -/
def bowingLines : List Typed := [⟨"", "noon"⟩, ⟨"1", "noon"⟩, ⟨"q", "noon"⟩]

/-- Of eleven blocks that bowing displays ten are new, and two of these have been shown. -/
theorem onStage_prints_new_blocks : ∃ now, (onStage true).after? bowingLines = some now ∧
    (onStage true).along unveiled bowingLines ++ now.hidden = (onStage true).along rendered bowingLines ∧
    ((onStage true).along unveiled bowingLines).length = 3 ∧ now.hidden.length = 8 := by
  have hcounts : ((onStage true).after? bowingLines).map (fun now =>
      (((onStage true).along unveiled bowingLines).length, now.hidden.length)) = some (3, 8) := by
    decide +kernel
  obtain ⟨now, hafter, hlengths⟩ := Option.map_eq_some_iff.mp hcounts
  obtain ⟨hshown, hhidden⟩ := Prod.mk.inj hlengths
  have hmake : Play.make stageScript (World.make (.ofValues []) [] [] [] []).value none = .ok stageSession.play := rfl
  have hactions : ∀ action ∈ [], Session.Action.SetsScalars action := fun _ h => absurd h List.not_mem_nil
  have hrun := (run_prints_new_blocks (c := onStage true) hmake hactions rfl rfl hafter).1
  exact ⟨now, hafter, hrun, hshown, hhidden⟩

def texts (outputs : List Output) : List String :=
  outputs.filterMap fun
    | .text s => some s
    | .notice _ => none

/-- Not every accepted command puts out all that the story displays by it: the player's line is not shown to
someone who bows. -/
theorem exists_accepted_not_printed : ¬ ∀ (script : Script) (flags : FlagValues)
    (items held notes unlocked : List String) (s : Session) (c now : Console) (lines : List Typed) (typed : Typed)
    (operation : Operation), script.bound = defaultBound →
      Play.make script (World.make (.ofValues flags) items held notes unlocked).value none = .ok s.play →
      c.session = s → c.hidden = [] → c.stepwise = false → c.after? lines = some now →
      now.accepted? typed.line = some operation →
      (now.feed typed).outputs = (now.play.perform operation).events.map Event.output ++
        (now.withPlay (now.play.perform operation).play).apart (now.play.turnBlocks operation) := by
  intro hall
  have hbow : ((onStage false).after? [⟨"", "noon"⟩]).bind (fun now => (now.accepted? "1").map fun operation =>
      decide (texts (now.feed ⟨"1", "noon"⟩).outputs = texts ((now.play.perform operation).events.map Event.output ++
        (now.withPlay (now.play.perform operation).play).apart (now.play.turnBlocks operation)))) = some false := by
    decide +kernel
  obtain ⟨now, hafter, hbow⟩ := Option.bind_eq_some_iff.mp hbow
  obtain ⟨operation, haccepted, hbow⟩ := Option.map_eq_some_iff.mp hbow
  have hprinted := hall stageScript [] [] [] [] [] stageSession (onStage false) now [⟨"", "noon"⟩] ⟨"1", "noon"⟩
    operation rfl rfl rfl rfl rfl hafter haccepted
  exact of_decide_eq_false hbow (congrArg texts hprinted)

end Console
end BranchingStory
