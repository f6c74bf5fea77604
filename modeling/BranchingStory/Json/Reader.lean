import BranchingStory.Json.Basic
import BranchingStory.Text.Half
import BranchingStory.Text.Hex
import BranchingStory.Text.Lines
import BranchingStory.Text.Numeral

/-!
# Reading JSON

The reader accepts the usual grammar and, beside it, the three names `NaN`, `Infinity` and
`-Infinity`. It stops at the first fault and says at which character it lies. A whole number of more
than 4300 digits is refused for its size, and an array or object for the number of those around it;
neither is a fault of the text.
-/

namespace BranchingStory
namespace Json

/-- What the reader expected or found where the text goes wrong. -/
inductive Reason where
  | expectingValue
  | expectingName
  | expectingColon
  | expectingComma
  | extraData
  | unterminatedString
  | controlCharacter
  | escape
  | unicodeEscape
  | byteOrderMark
deriving DecidableEq

def Reason.text : Reason → String
  | expectingValue => "Expecting value"
  | expectingName => "Expecting property name enclosed in double quotes"
  | expectingColon => "Expecting ':' delimiter"
  | expectingComma => "Expecting ',' delimiter"
  | extraData => "Extra data"
  | unterminatedString => "Unterminated string starting at"
  | controlCharacter => "Invalid control character at"
  | escape => "Invalid \\escape"
  | unicodeEscape => "Invalid \\uXXXX escape"
  | byteOrderMark => "Unexpected UTF-8 BOM (decode using utf-8-sig)"

inductive Fault where
  | malformed (reason : Reason) (position : Nat)
  | tooManyDigits (count : Nat)
  | tooDeep (shape : Shape)
deriving DecidableEq

def Fault.message (text : List Char) : Fault → String
  | malformed reason position =>
    reason.text ++ ": line " ++ toString (Text.lineNumber text position) ++ " column " ++
      toString (Text.columnNumber text position) ++ " (char " ++ toString position ++ ")"
  | tooManyDigits count => Numeral.tooManyDigitsMessage count
  | tooDeep shape =>
    "maximum recursion depth exceeded while decoding a JSON " ++ shape.name ++ " from a unicode string"

/-- The text still to be read and the position of its first character. -/
structure Cursor where
  position : Nat
  rest : List Char

namespace Cursor

def ofText (text : List Char) : Cursor := ⟨0, text⟩

def fail {α : Type} (c : Cursor) (reason : Reason) : Except Fault α :=
  .error (.malformed reason c.position)

def advance (c : Cursor) (n : Nat) : Cursor := ⟨c.position + n, c.rest.drop n⟩

def isSpace (c : Char) : Bool := c == ' ' || c == '\t' || c == '\n' || c == '\r'

def skipSpace (c : Cursor) : Cursor := c.advance (c.rest.takeWhile isSpace).length

def digits (c : Cursor) : List Char × Cursor :=
  let ds := c.rest.takeWhile Char.isDigit
  (ds, c.advance ds.length)

end Cursor

def natOfDigits (ds : List Char) : Nat := Numeral.ofDigits (ds.map fun d => d.toNat - 0x30)

private def simpleEscape? : Char → Option Char
  | '"' => some '"'
  | '\\' => some '\\'
  | '/' => some '/'
  | 'b' => some (Char.ofNat 0x08)
  | 'f' => some (Char.ofNat 0x0c)
  | 'n' => some '\n'
  | 'r' => some '\r'
  | 't' => some '\t'
  | _ => none

/-- The value of four hexadecimal digits at the head of a text. -/
def fourHex? : List Char → Option Nat
  | a :: b :: c :: d :: _ => do
    let a ← Text.hexValue? a
    let b ← Text.hexValue? b
    let c ← Text.hexValue? c
    let d ← Text.hexValue? d
    return ((a * 16 + b) * 16 + c) * 16 + d
  | _ => none

/-- What an escape at the cursor, just after its backslash, denotes, and how many characters it
takes. A pair of units is one character. The hexadecimal digits of an escape are only looked at when
another character follows them. -/
def readEscape (opening : Nat) (c : Cursor) : Except Fault (Char × Nat) :=
  match c.rest with
  | [] => .error (.malformed .unterminatedString opening)
  | 'u' :: ds =>
    match ds.drop 4, fourHex? ds with
    | [], _ => c.fail .unicodeEscape
    | _, none => c.fail .unicodeEscape
    | '\\' :: 'u' :: ds', some high =>
      if Text.isHighHalf high && !(ds'.drop 4).isEmpty then
        match fourHex? ds' with
        | none => (c.advance 6).fail .unicodeEscape
        | some low =>
          if Text.isLowHalf low then
            .ok (Char.ofNat (0x10000 + (high - 0xd800) * 0x400 + (low - 0xdc00)), 11)
          else .ok (Text.ofUnit high, 5)
      else .ok (Text.ofUnit high, 5)
    | _, some high => .ok (Text.ofUnit high, 5)
  | e :: _ =>
    match simpleEscape? e with
    | some ch => .ok (ch, 1)
    | none => .error (.malformed .escape (c.position - 1))

/-- The characters of a string up to its closing quote, in reverse; the fuel bounds the number of
characters. -/
def readChars (opening : Nat) : Nat → Cursor → List Char → Except Fault (String × Cursor)
  | 0, _, _ => .error (.malformed .unterminatedString opening)
  | fuel + 1, c, read =>
    match c.rest with
    | [] => .error (.malformed .unterminatedString opening)
    | '"' :: _ => .ok (String.ofList read.reverse, c.advance 1)
    | '\\' :: _ =>
      match readEscape opening (c.advance 1) with
      | .ok (ch, n) => readChars opening fuel (c.advance (n + 1)) (ch :: read)
      | .error e => .error e
    | ch :: _ =>
      if ch.toNat < 0x20 then c.fail .controlCharacter
      else readChars opening fuel (c.advance 1) (ch :: read)

def readString (fuel : Nat) (c : Cursor) : Except Fault (String × Cursor) :=
  readChars c.position fuel (c.advance 1) []

/-- The exponent part of a number, if the cursor is at a complete one. -/
def exponent? (c : Cursor) : Option (Int × Cursor) :=
  match c.rest with
  | mark :: rest =>
    if mark = 'e' ∨ mark = 'E' then
      let (negative, size) : Bool × Nat := match rest with
        | '-' :: _ => (true, 1)
        | '+' :: _ => (false, 1)
        | _ => (false, 0)
      let (ds, after) := (c.advance (1 + size)).digits
      if ds.isEmpty then none
      else some (if negative then -(natOfDigits ds : Int) else (natOfDigits ds : Int), after)
    else none
  | [] => none

/-- The fraction part of a number: its digits, none if the cursor is not at a complete one. -/
def fraction (c : Cursor) : List Char × Cursor :=
  match c.rest with
  | '.' :: d :: _ => if d.isDigit then (c.advance 1).digits else ([], c)
  | _ => ([], c)

/-- The digits before the point: a zero stands alone. -/
def wholeDigits (c : Cursor) : List Char × Cursor :=
  match c.rest with
  | '0' :: _ => (['0'], c.advance 1)
  | _ => c.digits

/-- A number after its sign. It is a double as soon as it has a fraction or an exponent. -/
def readNumber (start : Cursor) (negative : Bool) (c : Cursor) : Except Fault (Json × Cursor) :=
  let (whole, c) := wholeDigits c
  if whole.isEmpty then start.fail .expectingValue
  else
    let (fractional, c) := fraction c
    match exponent? c with
    | some (e, c) =>
      .ok (double (.ofDecimal negative (natOfDigits (whole ++ fractional)) (e - fractional.length)), c)
    | none =>
      if fractional.isEmpty then
        if Numeral.maxDigits < whole.length then .error (.tooManyDigits whole.length)
        else .ok (int (if negative then -(natOfDigits whole : Int) else natOfDigits whole), c)
      else
        .ok (double (.ofDecimal negative (natOfDigits (whole ++ fractional)) (-fractional.length)), c)

def constants : List (List Char × Json) :=
  [("null".toList, .null), ("true".toList, .bool true), ("false".toList, .bool false),
   ("NaN".toList, double .nan), ("Infinity".toList, double (.infinite false)),
   ("-Infinity".toList, double (.infinite true))]

def readScalar (c : Cursor) : Except Fault (Json × Cursor) :=
  match constants.find? fun entry => entry.1.isPrefixOf c.rest with
  | some (name, value) => .ok (value, c.advance name.length)
  | none =>
    match c.rest with
    | '-' :: _ => readNumber c true (c.advance 1)
    | _ => readNumber c false c

mutual
/-- The value at the cursor, with room for so many arrays and objects inside each other; the fuel
bounds the nesting, the number of items and the length of strings. -/
def readValue : Nat → Nat → Cursor → Except Fault (Json × Cursor)
  | _, 0, c => c.fail .expectingValue
  | room, fuel + 1, c =>
    match c.rest with
    | '"' :: _ => do
      let (s, c) ← readString fuel c
      return (.string s, c)
    | '[' :: _ =>
      match room with
      | 0 => .error (.tooDeep .array)
      | room + 1 =>
        let c := (c.advance 1).skipSpace
        match c.rest with
        | ']' :: _ => .ok (.array [], c.advance 1)
        | _ => readItems room fuel c []
    | '\x7b' :: _ =>
      match room with
      | 0 => .error (.tooDeep .object)
      | room + 1 =>
        let c := (c.advance 1).skipSpace
        match c.rest with
        | '\x7d' :: _ => .ok (.object [], c.advance 1)
        | _ => readMembers room fuel c []
    | _ => readScalar c

/-- The items of an array from the cursor on; `read` holds the earlier ones in reverse. -/
def readItems : Nat → Nat → Cursor → List Json → Except Fault (Json × Cursor)
  | _, 0, c, _ => c.fail .expectingValue
  | room, fuel + 1, c, read => do
    let (item, c) ← readValue room fuel c
    let c := c.skipSpace
    match c.rest with
    | ']' :: _ => return (.array (item :: read).reverse, c.advance 1)
    | ',' :: _ => readItems room fuel (c.advance 1).skipSpace (item :: read)
    | _ => c.fail .expectingComma

/-- The members of an object from the cursor on; `read` holds the earlier ones in reverse. -/
def readMembers : Nat → Nat → Cursor → List (String × Json) → Except Fault (Json × Cursor)
  | _, 0, c, _ => c.fail .expectingName
  | room, fuel + 1, c, read =>
    match c.rest with
    | '"' :: _ => do
      let (key, c) ← readString fuel c
      let c := c.skipSpace
      match c.rest with
      | ':' :: _ =>
        let (value, c) ← readValue room fuel (c.advance 1).skipSpace
        let c := c.skipSpace
        match c.rest with
        | '\x7d' :: _ => return (ofMembers ((key, value) :: read).reverse, c.advance 1)
        | ',' :: _ => readMembers room fuel (c.advance 1).skipSpace ((key, value) :: read)
        | _ => c.fail .expectingComma
      | _ => c.fail .expectingColon
    | _ => c.fail .expectingName
end

/-- The value that a text holds; at most `nesting` arrays and objects may stand inside the outermost
one. A value and an item that holds it take at least one character together, so the fuel is never used
up. -/
def read (nesting : Nat) (text : List Char) : Except Fault Json :=
  match text with
  | '\ufeff' :: _ => .error (.malformed .byteOrderMark 0)
  | _ => do
    let (value, c) ← readValue (nesting + 1) (2 * text.length + 2) (Cursor.ofText text).skipSpace
    let c := c.skipSpace
    if c.rest.isEmpty then return value else c.fail .extraData

end Json
end BranchingStory
