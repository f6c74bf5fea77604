import BranchingStory.Story.Cast

/-!
# Blocks

What was shown of a node is kept as a block. The speaker of a character's line is frozen in it: a
later reveal does not change what has been shown.
-/

namespace BranchingStory

structure Block where
  id : Option String
  kind : NodeKind
  text : Prose
  speaker : Option SpeakerRef := none
  frozen : Option Identity := none
  choices : List Choice := []
  graphic : Option String := none

namespace Block

/-- The block of a node; only a choice prompt keeps its choices. -/
def ofNode (n : Node) (frozen : Option Identity := none) : Block :=
  { id := n.id
    kind := n.kind
    text := n.text
    speaker := n.speaker
    frozen
    choices := if n.isPrompt then n.choices else []
    graphic := n.graphic }

def isPrompt (b : Block) : Bool := b.kind == .dialogueChoice

/-- Who is shown as speaking: the frozen identity, and for a block without one whoever the cast and
the flags say now. -/
def identity (b : Block) (cast : Cast) (isSet : String → Bool) : Told (Option Identity) :=
  match b.frozen with
  | some identity => pure (some identity)
  | none => SpeakerRef.resolve b.speaker cast isSet

end Block
end BranchingStory
