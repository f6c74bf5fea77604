import BranchingStory.Proofs.Moves

/-!
# Operations and runs

A host drives a play by operations. Any of them may come at any time, in any order and with any
argument: a choice that no prompt offers, an index out of range, a snapshot that is none. A run is a
list of operations, carried out one after the other; a refused operation is part of it like any other.
-/

namespace BranchingStory

/-- What a host can do with a play. -/
inductive Operation where
  | begin
  | advance
  | choose (choice : Choice)
  | chooseIndex (index : Int)
  | startAmbience
  | reset
  | restore (snapshot : Json)
  /-- The host changes flags on its own; `held` are the flags afterwards. -/
  | flags (held : Flags)

/-- The operations of a player: to go on, and to answer. -/
def Operation.isMove : Operation → Bool
  | .begin | .advance | .chooseIndex _ => true
  | _ => false

/-- The operations that only change flags. -/
def Operation.isFlags : Operation → Bool
  | .flags _ => true
  | _ => false

namespace Play

def withFlags (p : Play) (held : Flags) : Play := { p with world := { p.world with flags := held } }

def perform (p : Play) : Operation → Turn
  | .begin => p.begin
  | .advance => p.advance
  | .choose choice => p.choose choice
  | .chooseIndex index => p.chooseIndex index
  | .startAmbience => p.startAmbience
  | .reset => p.reset
  | .restore snapshot => p.restore snapshot
  | .flags held => (p.withFlags held).idle

def run (p : Play) (operations : List Operation) : Play :=
  operations.foldl (fun p operation => (p.perform operation).play) p

variable {p : Play}

@[simp] theorem run_nil : p.run [] = p := rfl

@[simp] theorem run_cons (operation : Operation) (operations : List Operation) :
    p.run (operation :: operations) = (p.perform operation).play.run operations := rfl

theorem run_append (before after : List Operation) : p.run (before ++ after) = (p.run before).run after :=
  List.foldl_append

theorem run_induction {P : Play → Prop} {operations : List Operation} (hp : P p)
    (hstep : ∀ q operation, operation ∈ operations → P q → P (q.perform operation).play) :
    P (p.run operations) := by
  induction operations generalizing p with
  | nil => exact hp
  | cons operation operations ih =>
    apply ih (hstep p operation List.mem_cons_self hp)
    intro q other hother
    exact hstep q other (List.mem_cons_of_mem _ hother)

/-! ## What an operation can do -/

@[simp] theorem startAmbience_fault : p.startAmbience.fault = none := by
  unfold startAmbience
  split <;> rfl

theorem startAmbience_play : ∃ ambienceStarted, p.startAmbience.play = { p with ambienceStarted } := by
  unfold startAmbience
  split
  · exact ⟨p.ambienceStarted, rfl⟩
  · exact ⟨true, rfl⟩

theorem advance_induction {P : Play → Prop} (hp : P p) (hend : P p.atEnd)
    (hshow : ∀ n, p.upcoming = some n → P (p.rendered n)) : P p.advance.play := by
  cases hw : p.history.waiting with
  | true =>
    rw [advance_of_waiting hw]
    exact hp
  | false =>
    cases hn : p.upcoming with
    | none =>
      rw [(advance_of_none hw hn).1]
      exact hend
    | some n =>
      rw [(advance_of_upcoming hn).1]
      exact hshow n hn

theorem choose_induction {P : Play → Prop} (choice : Choice) (hp : P p) (hchosen : P (p.chosen choice)) :
    P (p.choose choice).play := by
  cases hw : p.history.waiting with
  | true =>
    rw [(choose_of_waiting choice hw).1]
    exact hchosen
  | false =>
    rw [choose_of_not_waiting choice hw]
    exact hp

/-- All that an operation can make of a play: it ends the story, shows the upcoming node, carries out a
choice, puts in a new history that was made or read, lets the host set flags, or leaves all but its marks
as it was. Where it depends on the operation what is made, the operation is named. -/
theorem perform_induction_of_eq {P : Play → Prop} (operation : Operation) (hp : P p)
    (hmark : ∀ q begun ambienceStarted, P q → P { q with begun, ambienceStarted })
    (hend : P p.atEnd) (hshow : ∀ n, p.upcoming = some n → P (p.rendered n))
    (hchosen : ∀ choice, P (p.chosen choice))
    (hreset : ∀ history, History.make? p.script.graph.entry [] false p.script.bound = some history →
      P { p with history })
    (hrestore : ∀ snapshot, operation = .restore snapshot → ∀ history,
      (History.ofSnapshot p.script.graph p.script.bound snapshot).result = .ok history → P { p with history })
    (hflags : ∀ held, operation = .flags held → P (p.withFlags held)) :
    P (p.perform operation).play := by
  cases operation with
  | begin =>
    rw [perform, begin_eq.1]
    exact hmark _ true p.advance.play.ambienceStarted (advance_induction hp hend hshow)
  | advance => exact advance_induction hp hend hshow
  | choose choice => exact choose_induction choice hp (hchosen choice)
  | chooseIndex index =>
    cases h : p.choiceAt index with
    | some choice =>
      rw [perform, chooseIndex_of_some h]
      exact choose_induction choice hp (hchosen choice)
    | none =>
      obtain ⟨fault, hrefuse, _⟩ := chooseIndex_of_none h
      rw [perform, hrefuse]
      exact hp
  | startAmbience =>
    obtain ⟨ambienceStarted, hplay⟩ := startAmbience_play (p := p)
    rw [perform, hplay]
    exact hmark p p.begun ambienceStarted hp
  | reset =>
    rw [perform, reset]
    split
    · exact hp
    · rename_i history hmake
      exact hmark _ false false (hreset history hmake)
  | restore snapshot =>
    rw [perform, restore, restoreFrom]
    split
    · exact hp
    · rename_i history hread
      have hmoved := hrestore snapshot rfl history hread
      dsimp only
      split
      · exact hmoved
      · obtain ⟨ambienceStarted, hplay⟩ :=
          startAmbience_play (p := { p with history, begun := true, ambienceStarted := false })
        dsimp only
        rw [hplay]
        exact hmark { p with history } true ambienceStarted hmoved
  | flags held => exact hflags held rfl

theorem perform_induction {P : Play → Prop} (operation : Operation) (hp : P p)
    (hmark : ∀ q begun ambienceStarted, P q → P { q with begun, ambienceStarted })
    (hend : P p.atEnd) (hshow : ∀ n, p.upcoming = some n → P (p.rendered n))
    (hchosen : ∀ choice, P (p.chosen choice))
    (hreset : ∀ history, History.make? p.script.graph.entry [] false p.script.bound = some history →
      P { p with history })
    (hrestore : ∀ snapshot history,
      (History.ofSnapshot p.script.graph p.script.bound snapshot).result = .ok history → P { p with history })
    (hflags : ∀ held, operation = .flags held → P (p.withFlags held)) :
    P (p.perform operation).play :=
  perform_induction_of_eq operation hp hmark hend hshow hchosen hreset
    (fun snapshot _ => hrestore snapshot) hflags

/-! ## What a play is played from -/

@[simp] theorem perform_script (operation : Operation) : (p.perform operation).play.script = p.script := by
  refine perform_induction (P := fun q => q.script = p.script) operation rfl ?mark rfl ?shows ?chosen ?reset
    ?restore ?flags
  case mark => exact fun _ _ _ hq => hq
  all_goals intros; rfl

@[simp] theorem run_script (operations : List Operation) : (p.run operations).script = p.script := by
  refine run_induction (P := fun q => q.script = p.script) rfl ?_
  intro q operation _ hq
  rw [perform_script, hq]

end Play
end BranchingStory
