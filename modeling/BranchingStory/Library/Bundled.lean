import BranchingStory.Library.Repository

/-!
# The story that comes with the program

Without a choice of story, a short one is played: a rainy street, a bookshop, and a stranger behind
the counter.
-/

namespace BranchingStory
namespace Bundled

private def text (s : String) : String × Json := ("text", .string s)

private def paragraphs (ss : List String) : String × Json := ("text", .strings ss)

private def next (id : String) : String × Json := ("next", .string id)

private def name (s : String) : String × Json := ("name", .string s)

private def setting (flag : String) : Json := .object [(flag, .bool true)]

private def cue (id : String) (tenths : Nat) : Json :=
  .object [("id", .string id), ("volume", .double (.ofDecimal false tenths (-1)))]

private def node (id : String) (kind : NodeKind) (members : List (String × Json)) : Json :=
  .object ([("id", .string id), ("type", .string kind.name)] ++ members)

private def strangerSays (id : String) (s : String) (members : List (String × Json)) : Json :=
  node id .characterDialogue (("character", .string "stranger") :: paragraphs [s] :: members)

def characters : Json :=
  .object [
    ("you", .object [name "You", ("portrait", .string "")]),
    ("stranger", .object [
      name "Stranger",
      ("portrait", .string "portraits/iris.png"),
      ("nameStates", .array [
        .object [("condition", .string "strangerNamed"), ("label", .string "Iris")],
        .object [("label", .string "Hooded Stranger")]])])]

def flags : Json :=
  .object (["askedName", "strangerNamed", "refusedBook", "foundKey"].map fun id =>
    (id, .object [("default", .bool false)]))

def items : Json :=
  .array [.object [("id", .string "oldPaperback"), name "Old Paperback",
    ("description", .string "Dog-eared, with pencil notes in every margin.")]]

def notes : Json :=
  .array [.object [("id", .string "marginNote"), ("title", .string "Margin Directions"),
    text "Third shelf from the stair. Pull the red spine."]]

private def askName : Json :=
  .object [
    text "Who are you?",
    ("effects", setting "askedName"),
    ("reaction", .array [.object [
      ("type", .string NodeKind.characterDialogue.name),
      ("character", .string "stranger"),
      paragraphs ["Names are for people who plan to stay. Call me Iris."],
      ("effects", setting "strangerNamed")]])]

private def refuseBook : Json :=
  .object [text "I don't want the book.", ("effects", setting "refusedBook"), next "leaveShop"]

def story : Json :=
  .object [
    ("initialAmbience", cue "rain_street" 6),
    ("nodes", .array [
      node "lonelyStreet" .singleParagraph [
        text "Rain needles the empty street. A single lamp buzzes over the door of a shuttered bookshop.",
        next "shopDoor"],
      node "shopDoor" .multipleParagraphs [
        paragraphs [
          "The door is unlocked. Inside, paperbacks are stacked to the ceiling.",
          "Someone is sitting behind the counter, face hidden under a hood."],
        ("playSFX", .string "door_creak"),
        ("setAmbience", cue "shop_interior" 4),
        next "strangerGreets"],
      strangerSays "strangerGreets" "You're late. I saved the last copy for you." [
        ("inventoryAdd", .strings ["oldPaperback"]),
        next "askStranger"],
      node "askStranger" .dialogueChoice [
        text "What do you say?",
        ("choices", .array [askName, refuseBook]),
        ("nextIf", .array [.object [("conditions", setting "askedName"), next "irisExplains"]]),
        next "leaveShop"],
      strangerSays "irisExplains" "Read the margins. Whoever owned it left you directions." [
        ("notesAdd", .strings ["marginNote"]),
        next "secretPassage"],
      node "secretPassage" .singleParagraph [
        ("conditions", setting "foundKey"),
        text "Behind the shelf, a narrow stair leads down.",
        next "closing"],
      node "closing" .singleParagraph [
        text "The lamp outside flickers out. Whatever happens next starts on page one."],
      node "leaveShop" .singleParagraph [
        text "You step back into the rain. The bookshop's lights go dark behind you.",
        ("inventoryRemove", .strings ["oldPaperback"])]])]

def documents : List (String × Json) :=
  [(Source.characters.name, characters), (Source.flags.name, flags), (Source.items.name, items),
   (Source.notes.name, notes), (Source.story.name, story)]

/-- Write the documents into a directory, which is made if need be. -/
def install (directory : Path) (d : Disk) : Except DiskFault Disk := do
  documents.foldlM (fun d document => d.writeText (directory.file document.1) document.2.indented)
    (← (d.makeDirs directory).toExcept)

end Bundled
end BranchingStory
