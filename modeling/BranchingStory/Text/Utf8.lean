import BranchingStory.Text.Hex

/-!
# UTF-8

A file is a sequence of bytes and has to be decoded before anything else is read from it. The
decoder accepts exactly well-formed UTF-8 (no overlong form, no surrogate, nothing above U+10FFFF)
and says which bytes are at fault otherwise.
-/

namespace BranchingStory
namespace Utf8

inductive Reason where
  | startByte
  | continuationByte
  | endOfData
deriving DecidableEq

def Reason.text : Reason → String
  | startByte => "invalid start byte"
  | continuationByte => "invalid continuation byte"
  | endOfData => "unexpected end of data"

/-- The bytes at fault: where they begin, the first of them, and how many there are. -/
structure Fault where
  position : Nat
  first : UInt8
  count : Nat
  reason : Reason
deriving DecidableEq

def Fault.message (f : Fault) : String :=
  let bytes :=
    if f.count = 1 then "byte 0x" ++ String.ofList (Text.hex 2 f.first.toNat) ++ " in position " ++
      toString f.position
    else "bytes in position " ++ toString f.position ++ "-" ++ toString (f.position + f.count - 1)
  "'utf-8' codec can't decode " ++ bytes ++ ": " ++ f.reason.text

def isContinuation (b : UInt8) : Bool := 0x80 ≤ b && b ≤ 0xbf

/-- The second byte of a three-byte form excludes overlong forms and surrogates. -/
def isSecondOfThree (first b : UInt8) : Bool :=
  isContinuation b && !(first == 0xe0 && b < 0xa0) && !(first == 0xed && 0xa0 ≤ b)

/-- The second byte of a four-byte form excludes overlong forms and numbers above U+10FFFF. -/
def isSecondOfFour (first b : UInt8) : Bool :=
  isContinuation b && !(first == 0xf0 && b < 0x90) && !(first == 0xf4 && 0x90 ≤ b)

/-- The low six bits, which a continuation byte contributes. -/
def payload (b : UInt8) : Nat := b.toNat % 64

def charOf (n : Nat) (rest : Except Fault (List Char)) : Except Fault (List Char) :=
  rest.map (Char.ofNat n :: ·)

/-- The characters of a byte sequence whose first byte has the given position in the file. -/
def decodeFrom (position : Nat) : List UInt8 → Except Fault (List Char)
  | [] => .ok []
  | a :: rest =>
    if a < 0x80 then charOf a.toNat (decodeFrom (position + 1) rest)
    else if a < 0xc2 || 0xf4 < a then .error ⟨position, a, 1, .startByte⟩
    else if a < 0xe0 then
      match rest with
      | [] => .error ⟨position, a, 1, .endOfData⟩
      | b :: rest =>
        if isContinuation b then
          charOf (a.toNat % 32 * 64 + payload b) (decodeFrom (position + 2) rest)
        else .error ⟨position, a, 1, .continuationByte⟩
    else if a < 0xf0 then
      match rest with
      | [] => .error ⟨position, a, 1, .endOfData⟩
      | b :: rest =>
        if isSecondOfThree a b then
          match rest with
          | [] => .error ⟨position, a, 2, .endOfData⟩
          | c :: rest =>
            if isContinuation c then
              charOf ((a.toNat % 16 * 64 + payload b) * 64 + payload c)
                (decodeFrom (position + 3) rest)
            else .error ⟨position, a, 2, .continuationByte⟩
        else .error ⟨position, a, 1, .continuationByte⟩
    else
      match rest with
      | [] => .error ⟨position, a, 1, .endOfData⟩
      | b :: rest =>
        if isSecondOfFour a b then
          match rest with
          | [] => .error ⟨position, a, 2, .endOfData⟩
          | c :: rest =>
            if isContinuation c then
              match rest with
              | [] => .error ⟨position, a, 3, .endOfData⟩
              | d :: rest =>
                if isContinuation d then
                  charOf (((a.toNat % 8 * 64 + payload b) * 64 + payload c) * 64 + payload d)
                    (decodeFrom (position + 4) rest)
                else .error ⟨position, a, 3, .continuationByte⟩
            else .error ⟨position, a, 2, .continuationByte⟩
        else .error ⟨position, a, 1, .continuationByte⟩

/-- The characters of a file, or the first bytes of it that are at fault. -/
def decode (bytes : List UInt8) : Except Fault (List Char) :=
  decodeFrom 0 bytes

def encodeChar (c : Char) : List UInt8 :=
  let n := c.toNat
  if n < 0x80 then [.ofNat n]
  else if n < 0x800 then [.ofNat (0xc0 + n / 64), .ofNat (0x80 + n % 64)]
  else if n < 0x10000 then
    [.ofNat (0xe0 + n / 4096), .ofNat (0x80 + n / 64 % 64), .ofNat (0x80 + n % 64)]
  else
    [.ofNat (0xf0 + n / 262144), .ofNat (0x80 + n / 4096 % 64), .ofNat (0x80 + n / 64 % 64),
      .ofNat (0x80 + n % 64)]

def encode (s : String) : List UInt8 := s.toList.flatMap encodeChar

end Utf8
end BranchingStory
