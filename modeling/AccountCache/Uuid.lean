import AccountCache.Text.Hex

namespace AccountCache

structure Uuid where
  value : Nat
  value_lt : value < Nat.pow 2 128
deriving DecidableEq

namespace Uuid

theorem ext {a b : Uuid} (h : a.value = b.value) : a = b := by
  cases a; cases b; simp_all

instance : Ord Uuid := ⟨fun a b => compare a.value b.value⟩

instance : Std.TransOrd Uuid where
  eq_swap := Std.OrientedOrd.eq_swap (α := Nat)
  isLE_trans h h' := @Std.TransCmp.isLE_trans Nat compare _ _ _ _ h h'

instance : Std.LawfulEqOrd Uuid where
  eq_of_compare h := ext (Std.LawfulEqOrd.eq_of_compare (α := Nat) h)
  compare_self := Std.ReflOrd.compare_self (α := Nat)

def ofNat (n : Nat) : Uuid := ⟨n % Nat.pow 2 128, Nat.mod_lt _ (by decide)⟩

def zero : Uuid := ofNat 0

instance : Inhabited Uuid := ⟨zero⟩

/-- The 32 lower-case hexadecimal digits, with hyphens after the 8th, 12th,
16th and 20th. -/
def toChars (u : Uuid) : List Char :=
  let d := hexDigits 32 u.value
  d.take 8 ++ '-' :: (d.drop 8).take 4 ++ '-' :: (d.drop 12).take 4 ++
    '-' :: (d.drop 16).take 4 ++ '-' :: d.drop 20

def text (u : Uuid) : String := String.ofList u.toChars

def ofDigits? (cs : List Char) : Option Uuid :=
  if cs.length = 32 then (hexNumber? cs).map ofNat else none

def ofHyphenated? (cs : List Char) : Option Uuid :=
  let hyphens := [8, 13, 18, 23].all fun i => cs[i]? == some '-'
  if cs.length = 36 && hyphens then
    ofDigits? (cs.take 8 ++ (cs.drop 9).take 4 ++ (cs.drop 14).take 4 ++
      (cs.drop 19).take 4 ++ cs.drop 24)
  else none

/-- Reads any of the written forms: with hyphens or without, in braces, or
after `urn:uuid:`, and in either case. -/
def ofText? (s : String) : Option Uuid :=
  let cs := s.toList
  if cs.length = 32 then ofDigits? cs
  else if cs.length = 36 then ofHyphenated? cs
  else if cs.length = 38 && cs.head? == some '\x7b' && cs.getLast? == some '\x7d' then
    ofHyphenated? ((cs.drop 1).take 36)
  else if cs.length = 45 && (cs.take 9).map Char.toLower == "urn:uuid:".toList then
    ofHyphenated? (cs.drop 9)
  else none

/-- A random identifier of version 4 and the standard variant, from 122
random bits. -/
def version4 (bits : Nat) : Uuid :=
  let high := bits / Nat.pow 2 74 % Nat.pow 2 48
  let middle := bits / Nat.pow 2 62 % Nat.pow 2 12
  let low := bits % Nat.pow 2 62
  ofNat (high * Nat.pow 2 80 + 4 * Nat.pow 2 76 + middle * Nat.pow 2 64 + 2 * Nat.pow 2 62 + low)

/-- Whether a text is the hyphenated form of a random identifier. -/
def isVersion4 (s : String) : Bool :=
  let cs := s.toList
  (ofHyphenated? cs).isSome && cs[14]? == some '4' &&
    (cs[19]?.bind hexValue?).any fun v => 8 ≤ v && v < 12

end Uuid

end AccountCache
