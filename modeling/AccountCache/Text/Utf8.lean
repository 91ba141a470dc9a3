namespace AccountCache

def Bytes := ByteArray

namespace Bytes

instance : DecidableEq Bytes := ByteArray.instDecidableEq

instance : Inhabited Bytes := ⟨ByteArray.empty⟩

def ofList (bs : List UInt8) : Bytes := ByteArray.mk bs.toArray

def toList (b : Bytes) : List UInt8 := (ByteArray.data b).toList

def ofText (s : String) : Bytes := s.toUTF8

/-- The text of bytes that are one. -/
def text? (b : Bytes) : Option String := String.fromUTF8? b

end Bytes

/-- A character of a text, or nothing for bytes that are part of
no character. -/
abbrev Symbol := Option Char

/-- How many bytes the character has that starts with a given byte. -/
def charWidth (lead : UInt8) : Nat :=
  if lead < 0x80 then 1 else if lead < 0xe0 then 2 else if lead < 0xf0 then 3 else 4

/-- The single character that some bytes write. -/
def charOfBytes? (bs : List UInt8) : Option Char :=
  match (Bytes.ofList bs).text?.map String.toList with
  | some [c] => some c
  | _ => none

/-- Whether a character of a given width starts with some bytes. -/
def startsChar (width : Nat) (bs : List UInt8) : Bool :=
  let filled (fill : UInt8) : Bool :=
    (charOfBytes? (bs ++ List.replicate (width - bs.length) fill)).isSome
  filled 0x80 || filled 0xbf

/-- How many bytes in front stand for a character that is broken off: as
many as a character may start with, and at least one. -/
def brokenWidth (bs : List UInt8) : Nat :=
  let width := charWidth (bs.headD 0)
  let starts (n : Nat) : Bool := n < width && n ≤ bs.length && startsChar width (bs.take n)
  ([3, 2].find? starts).getD 1

/-- Reads characters where it can, after skipping the given number of bytes.
Bytes that start a character which then breaks off stand together, and any
other byte that belongs to no character stands for itself. -/
def lossySymbols : Nat → List UInt8 → List Symbol
  | _, [] => []
  | skip + 1, _ :: rest => lossySymbols skip rest
  | 0, b :: rest =>
    match charOfBytes? (b :: rest.take (charWidth b - 1)) with
    | some c => some c :: lossySymbols (charWidth b - 1) rest
    | none => none :: lossySymbols (brokenWidth (b :: rest) - 1) rest

/-- The symbols of a sequence of bytes. -/
def symbolsOfBytes (b : Bytes) : List Symbol :=
  match b.text? with
  | some s => s.toList.map some
  | none => lossySymbols 0 b.toList

end AccountCache
