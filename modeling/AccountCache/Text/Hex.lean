namespace AccountCache

def hexDigit (n : Nat) : Char :=
  if n < 10 then Char.ofNat ('0'.toNat + n) else Char.ofNat ('a'.toNat + (n - 10))

def hexValue? (c : Char) : Option Nat :=
  if '0' ≤ c ∧ c ≤ '9' then some (c.toNat - '0'.toNat)
  else if 'a' ≤ c ∧ c ≤ 'f' then some (c.toNat - 'a'.toNat + 10)
  else if 'A' ≤ c ∧ c ≤ 'F' then some (c.toNat - 'A'.toNat + 10)
  else none

/-- The last `width` hexadecimal digits of a number, in lower case. They are
read in either case. -/
def hexDigits : Nat → Nat → List Char
  | 0, _ => []
  | width + 1, n => hexDigits width (n / 16) ++ [hexDigit (n % 16)]

/-- The number that a run of hexadecimal digits writes. -/
def hexNumber? (cs : List Char) : Option Nat :=
  cs.foldlM (fun n c => (hexValue? c).map (16 * n + ·)) 0

def hexOfBytes (bs : List UInt8) : String :=
  String.ofList (bs.flatMap fun x => hexDigits 2 x.toNat)

/-- The bytes that a text of two digits each writes; from the first other
character on, none. -/
def bytesOfHex : List Char → List UInt8
  | a :: b :: rest =>
    match hexNumber? [a, b] with
    | some n => n.toUInt8 :: bytesOfHex rest
    | none => []
  | _ => []

end AccountCache
