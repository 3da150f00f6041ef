/-!
Texts as bytes. A character is written as one to four bytes; what is read has to be the shortest such
form of a character. Reading stops at the first byte that is not part of one, and tells where that is;
or it goes on, with a replacement character for every piece that is none.
-/

namespace SchemaTables

/-- The content of a file. -/
abbrev Bytes := List UInt8

namespace Text.Utf8

def encode (s : String) : Bytes := s.toList.flatMap String.utf8EncodeChar

/-- A byte that goes on with a character. -/
def isContinuation (b : UInt8) : Bool := 0x80 ≤ b && b < 0xC0

/-- The least and the greatest second byte after a first byte. -/
def secondBounds (first : UInt8) : UInt8 × UInt8 :=
  if first = 0xE0 then (0xA0, 0xBF)
  else if first = 0xED then (0x80, 0x9F)
  else if first = 0xF0 then (0x90, 0xBF)
  else if first = 0xF4 then (0x80, 0x8F)
  else (0x80, 0xBF)

def isSecond (first b : UInt8) : Bool := (secondBounds first).1 ≤ b && b ≤ (secondBounds first).2

/-- How many bytes the character has that starts with this one. -/
def width? (first : UInt8) : Option Nat :=
  if first < 0x80 then some 1
  else if 0xC2 ≤ first ∧ first < 0xE0 then some 2
  else if 0xE0 ≤ first ∧ first < 0xF0 then some 3
  else if 0xF0 ≤ first ∧ first < 0xF5 then some 4
  else none

/-- The bits that a continuation byte adds. -/
def addBits (n : Nat) (b : UInt8) : Nat := n * 64 + b.toNat % 64

/-- The character at the front and its width. -/
def charAt? : Bytes → Option (Char × Nat)
  | [] => none
  | a :: s =>
    match width? a, s with
    | some 1, _ => some (Char.ofNat a.toNat, 1)
    | some 2, b :: _ =>
      if isSecond a b then some (Char.ofNat (addBits (a.toNat % 32) b), 2) else none
    | some 3, b :: c :: _ =>
      if isSecond a b && isContinuation c then
        some (Char.ofNat (addBits (addBits (a.toNat % 16) b) c), 3)
      else none
    | some 4, b :: c :: d :: _ =>
      if isSecond a b && isContinuation c && isContinuation d then
        some (Char.ofNat (addBits (addBits (addBits (a.toNat % 8) b) c) d), 4)
      else none
    | _, _ => none

/-- Reads characters up to the first byte that belongs to none. Bytes of a character that has been read
are skipped. Gives the characters and what is left. -/
def decodeFrom : Nat → Bytes → List Char × Bytes
  | _, [] => ([], [])
  | skip + 1, _ :: s => decodeFrom skip s
  | 0, a :: s =>
    match charAt? (a :: s) with
    | some (c, n) => let (cs, rest) := decodeFrom (n - 1) s; (c :: cs, rest)
    | none => ([], a :: s)

/-- The text of bytes, or the number of bytes in front of the first that belongs to no character. -/
def decode (s : Bytes) : Except Nat String :=
  let (cs, rest) := decodeFrom 0 s
  if rest.isEmpty then .ok (String.ofList cs) else .error (s.length - rest.length)

def decode? (s : Bytes) : Option String := (decode s).toOption

/-- The number of bytes at the front that could start a character but do not. -/
def brokenLength : Bytes → Nat
  | a :: b :: rest =>
    match width? a with
    | some n =>
      if 1 < n && isSecond a b then
        match rest with
        | c :: _ => if 2 < n && isContinuation c then 3 else 2
        | [] => 2
      else 1
    | none => 1
  | _ => 1

/-- Reads all bytes, with a replacement character for every piece that is no character. -/
def replacingFrom : Nat → Bytes → List Char
  | _, [] => []
  | skip + 1, _ :: s => replacingFrom skip s
  | 0, a :: s =>
    match charAt? (a :: s) with
    | some (c, n) => c :: replacingFrom (n - 1) s
    | none => '\ufffd' :: replacingFrom (brokenLength (a :: s) - 1) s

def decodeReplacing (s : Bytes) : String := String.ofList (replacingFrom 0 s)

end Text.Utf8

end SchemaTables
