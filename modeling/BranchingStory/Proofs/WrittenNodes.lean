import BranchingStory.Proofs.Stability

/-!
# Writing a node loses its empty values only

Two nodes are written alike just when they differ in nothing but empty values: an empty id, target or
graphic may as well be missing, and an empty list of paragraphs may as well be an empty text, in the
nodes and in all that their choices hold. The rest of a node that was read comes back from its written
form as it was, the empty strings of branches, cues and inline characters included.
-/

namespace BranchingStory

/-! ## Tidying goes through lists -/

theorem Choice.allNormal_eq_map (choices : List Choice) : Choice.allNormal choices = choices.map Choice.normal := by
  induction choices with
  | nil => rfl
  | cons choice choices ih => rw [Choice.allNormal, ih, List.map_cons]

theorem Node.allNormal_eq_map (nodes : List Node) : Node.allNormal nodes = nodes.map Node.normal := by
  induction nodes with
  | nil => rfl
  | cons node nodes ih => rw [Node.allNormal, ih, List.map_cons]

theorem Prose.normal_eq_ite (text : Prose) :
    text.normal = if text = .paragraphs [] then .single "" else text := by
  cases text with
  | single s => rfl
  | paragraphs ss => cases ss <;> rfl

theorem Node.normal_eq (n : Node) :
    n.normal =
      { n with
        id := nonEmpty? n.id
        next := nonEmpty? n.next
        graphic := nonEmpty? n.graphic
        text := if n.text = .paragraphs [] then .single "" else n.text
        choices := n.choices.map Choice.normal } := by
  cases n
  rw [Node.normal, Choice.allNormal_eq_map, Prose.normal_eq_ite]

theorem Choice.normal_eq (c : Choice) :
    c.normal = { c with next := nonEmpty? c.next, reactions := c.reactions.map Node.normal } := by
  cases c
  rw [Choice.normal, Node.allNormal_eq_map]

/-! ## What is written alike -/

/-- Where reading what was written only tidies, and tidying does not show, things are written alike just
when they are tidied alike. -/
theorem Reading.written_alike_iff {α : Type} {toJson : α → Json} {normal : α → α} {read : Json → Reading α}
    (hread : ∀ a, (read (toJson a)).result = .ok (normal a)) (hnormal : ∀ a, toJson (normal a) = toJson a)
    {a b : α} : toJson a = toJson b ↔ normal a = normal b := by
  constructor
  · intro h
    have ha := hread a
    rw [h, hread b] at ha
    exact (Except.ok.inj ha).symm
  · intro h
    rw [← hnormal a, h, hnormal b]

theorem Node.toJson_eq_toJson_iff {m n : Node} : m.toJson = n.toJson ↔ m.normal = n.normal :=
  Reading.written_alike_iff (Node.read_toJson "") Node.toJson_normal

theorem Choice.toJson_eq_toJson_iff {c d : Choice} : c.toJson = d.toJson ↔ c.normal = d.normal :=
  Reading.written_alike_iff (Choice.read_toJson "") Choice.toJson_normal

theorem Node.normal_normal (n : Node) : n.normal.normal = n.normal :=
  Node.toJson_eq_toJson_iff.mp n.toJson_normal

theorem Choice.normal_normal (c : Choice) : c.normal.normal = c.normal :=
  Choice.toJson_eq_toJson_iff.mp c.toJson_normal

/-- A node that was read from any value is read from its written form as well, in whatever place. It comes
back without its empty id, target, graphic and list of paragraphs and with its choices tidied, a choice
without its empty target and with its reactions tidied in turn; nothing else of it changes. Tidying twice
is tidying once, and does not show in the written form. -/
theorem Node.toJson_undone :
    (∀ place j n, (Node.read place j).result = .ok n →
      ∀ again, (Node.read again n.toJson).result = .ok n.normal) ∧
    (∀ n : Node,
      n.normal =
        { n with
          id := nonEmpty? n.id
          next := nonEmpty? n.next
          graphic := nonEmpty? n.graphic
          text := if n.text = .paragraphs [] then .single "" else n.text
          choices := n.choices.map Choice.normal } ∧
      n.normal.normal = n.normal ∧ n.normal.toJson = n.toJson) ∧
    ∀ c : Choice,
      c.normal = { c with next := nonEmpty? c.next, reactions := c.reactions.map Node.normal } ∧
      c.normal.normal = c.normal ∧ c.normal.toJson = c.toJson := by
  refine ⟨?again, ?nodes, ?choices⟩
  case again =>
    intro _ _ n _ again
    exact Node.read_toJson again n
  case nodes =>
    intro n
    exact ⟨n.normal_eq, n.normal_normal, n.toJson_normal⟩
  case choices =>
    intro c
    exact ⟨c.normal_eq, c.normal_normal, c.toJson_normal⟩

/-- A prompt with empty values wherever there may be some. -/
def knockJson : Json :=
  .object
    [("id", .string ""), ("type", .string "dialogueChoice"), ("text", .array []),
     ("character", .object [("id", .string ""), ("name", .string "")]),
     ("conditions", .object [("night", .bool true), ("steps", .array [])]),
     ("next", .string ""),
     ("nextIf", .array
       [.object [("next", .string ""), ("conditions", .object [("heard", .string "")])],
        .object [("next", .string "hall")]]),
     ("inventoryAdd", .array [.string ""]),
     ("setAmbience", .object [("id", .string ""), ("volume", .double (.zero true))]),
     ("choices", .array
       [.object
         [("text", .string "Knock"), ("next", .string ""), ("effects", .object [("heard", .int 1)]),
          ("reaction", .array
            [.object
              [("type", .string "singleParagraph"), ("text", .array []), ("playSFX", .string "knock"),
               ("graphic", .string "")]])]]),
     ("graphic", .string "door")]

def knock : Node :=
  { id := some ""
    kind := .dialogueChoice
    text := .paragraphs []
    speaker := some (.inline ⟨"", some "", none⟩)
    conditions := [("night", .bool true)]
    next := some ""
    branches := [⟨some "", [("heard", .text "")]⟩, ⟨some "hall", []⟩]
    itemsAdded := [""]
    ambience := some ⟨"", .zero true⟩
    choices :=
      [{ text := "Knock"
         next := some ""
         effects := [("heard", .number (.int 1))]
         reactions :=
           [{ kind := .singleParagraph, text := .paragraphs [], sound := some ⟨"knock", .one⟩,
              graphic := some "" }] }]
    graphic := some "door" }

def knockTidied : Node :=
  { knock with
    id := none
    text := .single ""
    next := none
    choices :=
      [{ text := "Knock"
         effects := [("heard", .number (.int 1))]
         reactions := [{ kind := .singleParagraph, sound := some ⟨"knock", .one⟩ }] }] }

theorem knock_toJson_undone :
    (Node.read "story nodes[0]" knockJson).result = .ok knock ∧
      (Node.read "reaction[0]" knock.toJson).result = .ok knockTidied := by
  have hread : (Node.read "story nodes[0]" knockJson).result = .ok knock := rfl
  obtain ⟨hagain, -, -⟩ := Node.toJson_undone
  have htidied : knock.normal = knockTidied := rfl
  exact ⟨hread, htidied ▸ hagain _ _ _ hread "reaction[0]"⟩

end BranchingStory
