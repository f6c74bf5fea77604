import BranchingStory.Play.Save
import BranchingStory.Story.Walk

/-!
# Playing a story

A play is a script together with everything that changes: the position and the history, the world,
whether the story has begun and whether its ambience has been started. One operation is one turn. A
turn says what the play is afterwards, which blocks it put on display, what happened on the way, and
whether the operation was refused.

`Play.fault?` states what ties position and pending choice together; turns that move the play check
it at their end.
-/

namespace BranchingStory

/-- What a play is played from. -/
structure Script where
  graph : Graph
  cast : Cast := []
  bound : Int := defaultBound
  /-- Whether there is a player to issue sound cues to. -/
  hasAudio : Bool := true

structure Play where
  script : Script
  history : History
  world : World
  begun : Bool := false
  ambienceStarted : Bool := false

/-- What happens during a turn, for the surroundings to hear of. -/
inductive Event where
  | notice (n : Notice)
  | ambience (cue : Cue)
  | sound (cue : Cue)
  | begun

/-- Why an operation is refused. -/
inductive PlayFault where
  | noChoicePending
  | noSuchChoice (index : Int) (node : Option String)
  | waitingOffPrompt (position : Option String)
  | promptNotWaiting (position : Option String)
  | restore (fault : RestoreFault)
  | noRoom
deriving DecidableEq

def PlayFault.message : PlayFault → String
  | noChoicePending => "No choice is pending."
  | noSuchChoice index node =>
    "Choice index " ++ toString index ++ " is invalid for node '" ++ Notice.idText node ++ "'."
  | waitingOffPrompt position =>
    "Waiting on a choice but current node '" ++ Notice.idText position ++ "' is not a choice prompt."
  | promptNotWaiting position =>
    "Choice prompt '" ++ Notice.idText position ++ "' is displayed but not awaiting an answer."
  | restore fault => fault.message
  | noRoom => History.boundMessage

/-- The outcome of one operation. -/
structure Turn where
  play : Play
  /-- The id of the prompt that was answered; its block is taken out of the history. -/
  answered : Option String := none
  shown : List Block := []
  events : List Event := []
  fault : Option PlayFault := none

/-- The blocks of the history after a turn, with numbers to know them by, since equal blocks may follow each
other: those that were in it before are numbered from zero, and those that the turn shows are numbered
on. -/
def Turn.entries (before : List Block) (turn : Turn) : List (Block × Nat) :=
  let old := before.zipIdx
  let kept := turn.answered.elim old fun id => old.eraseP fun entry => entry.1.id == some id
  latest turn.play.history.bound (kept ++ turn.shown.zipIdx before.length)

def noticeEvents (notices : List Notice) : List Event := notices.map .notice

namespace Script

/-- The cues of a node, its ambience before its sound; without a player there are none. -/
def cueEvents (s : Script) (n : Node) : List Event :=
  if s.hasAudio then (n.ambience.map .ambience).toList ++ (n.sound.map .sound).toList else []

/-- The ambience of the latest block whose node has one, else the initial ambience. -/
def latestAmbience (s : Script) (blocks : List Block) : Option Cue :=
  (blocks.reverse.findSome? fun b => (s.graph.find? b.id).bind Node.ambience).or
    s.graph.initialAmbience

end Script

namespace Play

variable (p : Play)

/-! ## What a play shows -/

def node? : Option Node := p.script.graph.find? p.history.current

def pendingChoices : List Choice :=
  if p.history.waiting then p.node?.elim [] Node.choices else []

/-- Who a block shows as speaking at present. -/
def identityOf (b : Block) : Told (Option Identity) :=
  b.identity p.script.cast p.world.flags.isSet

/-- The latest block whose speaker has a portrait. -/
def lastPortrait : Told (Option Block) :=
  search p.history.blocks.reverse
where
  search : List Block → Told (Option Block)
    | [] => pure none
    | b :: bs => do
      let identity ← p.identityOf b
      if identity.any fun i => i.portrait != "" then return some b else search bs

/-! ## Consistency -/

def atPrompt : Bool := p.node?.any Node.isPrompt

/-- What is inconsistent: a choice is pending although the position is no prompt, or a prompt is on
display and no choice is pending. A prompt that has not been shown yet is not pending. -/
def fault? : Option PlayFault :=
  if p.history.waiting && !p.atPrompt then some (.waitingOffPrompt p.history.current)
  else if p.atPrompt && !p.history.waiting && p.history.hasShown p.history.current then
    some (.promptNotWaiting p.history.current)
  else none

def idle : Turn := { play := p }

/-- A turn that is refused and changes nothing. -/
def refuse (fault : PlayFault) : Turn := { play := p, fault := some fault }

end Play

def Turn.checked (t : Turn) : Turn := { t with fault := t.play.fault? }

namespace Play

/-! ## Starting -/

/-- A play from the entry of the graph. -/
def fresh? (script : Script) (world : World) : Option Play := do
  let history ← History.make? script.graph.entry [] false script.bound
  return { script, history, world }

/-- A play that goes on from a given history; one with blocks has begun. -/
def resume (script : Script) (world : World) (history : History) : Play :=
  { script, history, world, begun := !history.blocks.isEmpty }

/-- A play over a given history, or from the entry of the graph without one; it has to be consistent. -/
def make (script : Script) (world : World) (history : Option History) : Except PlayFault Play :=
  match history.map (resume script world) <|> fresh? script world with
  | none => .error .noRoom
  | some p =>
    match p.fault? with
    | none => .ok p
    | some fault => .error fault

variable (p : Play)

/-- The ambience to start with. A play with a history goes on with the latest ambience; a fresh one
has the initial ambience, unless the first node brings its own. -/
def openingAmbience : Option Cue :=
  if p.history.blocks.isEmpty then
    if (p.node?.bind Node.ambience).isSome then none else p.script.graph.initialAmbience
  else p.script.latestAmbience p.history.blocks

/-- Start the ambience, once. -/
def startAmbience : Turn :=
  if p.ambienceStarted || !p.script.hasAudio then p.idle
  else { play := { p with ambienceStarted := true }
         events := (p.openingAmbience.map .ambience).toList }

/-- Back to the entry of the graph, with nothing shown. The world stays as it is. -/
def reset : Turn :=
  match History.make? p.script.graph.entry [] false p.script.bound with
  | none => p.refuse .noRoom
  | some history =>
    { play := { p with history, begun := false, ambienceStarted := false }
      events := [.notice (.reset history.current)] }

/-! ## Moving on -/

/-- The block of a node as it is shown now; only a character's line has a speaker to freeze. -/
def freeze (world : World) (n : Node) : Told Block :=
  if n.kind = .characterDialogue then
    (Block.ofNode n ·) <$> SpeakerRef.resolve n.speaker p.script.cast world.flags.isSet
  else pure (Block.ofNode n)

def freezeAll (world : World) : List Node → Told (List Block)
  | [] => pure []
  | n :: ns => do
    let block ← p.freeze world n
    return block :: (← freezeAll world ns)

def atEnd : Play := { p with history := p.history.ended }

def endEvents : List Event := [.notice .ended]

/-- Show a node: carry out its effects, play its cues, add its block, and stand there. A node that
nothing follows ends the story. -/
def render (n : Node) : Turn :=
  let world := p.world.apply n
  let block := p.freeze world.value n
  let history := p.history.append [block.value]
  let events := noticeEvents world.notices ++ p.script.cueEvents n ++ noticeEvents block.notices ++
    [.notice (.rendered n.id n.kind)]
  let moved : Play := { p with world := world.value, history }
  let turn : Turn :=
    if n.isPrompt then
      { play := { moved with history := { history with current := n.id, waiting := true } }, events }
    else if n.hasSuccessor then
      { play := { moved with history := { history with current := n.id } }, events }
    else { play := moved.atEnd, events := events ++ endEvents }
  { turn with shown := [block.value] }.checked

/-- The node that advancing from `here` shows: the first on the way that may be shown, and if that
one is already in the history, the first on the way behind it. -/
def nextToShow (here : Node) : Told (Option Node) := do
  let g := p.script.graph
  let flags := p.world.flags
  let first ← g.renderableOf flags (some here)
  match first with
  | none => return none
  | some n =>
    if p.history.hasShown n.id then
      let behind ← g.nextOf flags (some n)
      g.renderableOf flags (g.find? behind)
    else return some n

/-- Show the next node. Nothing happens at the end of the story or while a choice is pending. -/
def advance : Turn :=
  match p.history.current with
  | none => p.idle
  | some position =>
    if p.history.waiting then p.idle
    else match p.node? with
      | none => { play := p.atEnd, events := .notice (.currentMissing position) :: endEvents }
      | some here =>
        let found := p.nextToShow here
        match found.value with
        | none => { play := p.atEnd, events := noticeEvents found.notices ++ endEvents }
        | some n =>
          let turn := p.render n
          { turn with events := noticeEvents found.notices ++ turn.events }

/-- Begin the story if it has not begun, then advance. -/
def begin : Turn :=
  if p.begun then p.advance
  else
    let turn := { p with begun := true }.advance
    { turn with events := .notice (.begun p.history.current) :: .begun :: turn.events }

/-! ## Choosing -/

def player : SpeakerRef := .inline { id := "you", name := some "You" }

def speech (choice : Choice) : Node :=
  { kind := .characterDialogue, text := .paragraphs [choice.text], speaker := some player }

/-- Where a choice leads: to its own target, and without one along the way from the prompt, with the
effects of the choice already counted. -/
def choiceTarget (choice : Choice) : Told (Option String) :=
  match nonEmpty? choice.next with
  | some id => pure (some id)
  | none => p.script.graph.nextOf (p.world.flags.setAll choice.effects) p.node?

/-- A target that names no node of the graph is worth a notice. -/
def danglingNotices (choice : Choice) (target : Option String) : List Notice :=
  match nonEmpty? target with
  | some id => if p.script.graph.contains id then [] else [.choiceDangling choice.text id]
  | none => []

/-- Answer the pending prompt: the player's line, the reactions and the node that follows are shown in
place of the prompt. All effects happen before anything is shown. -/
def choose (choice : Choice) : Turn :=
  if !p.history.waiting then p.idle
  else
    let chosen := p.world.applyEffects choice.effects
    let reacted := chosen.value.applyAll choice.reactions
    let target := p.choiceTarget choice
    let next := p.script.graph.find? target.value
    let world := reacted.value.applyOption next
    let blocks := p.freezeAll world.value (speech choice :: choice.reactions ++ next.toList)
    let events := noticeEvents (chosen.notices ++ reacted.notices ++ target.notices ++
        p.danglingNotices choice target.value ++ world.notices) ++
      next.elim [] p.script.cueEvents ++
      noticeEvents (blocks.notices ++ [.chosen choice.text p.history.current target.value])
    let cleared := p.node?.elim p.history fun prompt => p.history.removeFirst prompt.id
    let history := cleared.append blocks.value
    let moved : Play := { p with world := world.value, history }
    let turn : Turn :=
      match next with
      | none => { play := moved.atEnd, events := events ++ endEvents }
      | some n =>
        { play := { moved with history := { history with current := n.id, waiting := n.isPrompt } }, events }
    { turn with answered := p.node?.bind fun prompt => nonEmpty? prompt.id, shown := blocks.value }.checked

/-- Answer the pending prompt with the choice at an index, counted from zero. -/
def chooseIndex (index : Int) : Turn :=
  if !p.history.waiting then p.refuse .noChoicePending
  else if index < 0 then p.refuse (.noSuchChoice index p.history.current)
  else match p.pendingChoices[index.toNat]? with
    | some choice => p.choose choice
    | none => p.refuse (.noSuchChoice index p.history.current)

/-! ## Restoring -/

/-- Go on from what was read of a snapshot. A snapshot that is refused changes nothing. The ambience starts
anew. -/
def restoreFrom (read : Restoring History) : Turn :=
  match read.result with
  | .error fault => { p.refuse (.restore fault) with events := noticeEvents read.notices }
  | .ok history =>
    let moved : Play := { p with history }
    match moved.fault? with
    | some fault => { moved.refuse fault with events := noticeEvents read.notices }
    | none =>
      let turn := { moved with begun := true, ambienceStarted := false }.startAmbience
      { turn with
        events := noticeEvents read.notices ++ turn.events ++ [.notice (.restored history.current)] }

/-- Go on from a snapshot, however deep its choices nest. -/
def restore (snapshot : Json) : Turn :=
  p.restoreFrom (History.ofSnapshot p.script.graph p.script.bound snapshot)

/-- The same with room for so many nodes and choices inside each other. -/
def restoreWithin (room : Nat) (snapshot : Json) : Turn :=
  p.restoreFrom (History.ofSnapshotWithin room p.script.graph p.script.bound snapshot)

end Play
end BranchingStory
