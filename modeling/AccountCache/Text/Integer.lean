namespace AccountCache

/-- The number that a non-empty run of digits writes. -/
def decimal? (cs : List Char) : Option Nat :=
  if cs.isEmpty || cs.any (fun c => !c.isDigit) then none
  else some (cs.foldl (fun n c => 10 * n + (c.toNat - '0'.toNat)) 0)

def minInt64 : Int := -9223372036854775808

def maxInt64 : Int := 9223372036854775807

def maxNat64 : Nat := 18446744073709551615

/-- Reads a signed integer of 64 bits: an optional sign, then one or more of
the digits 0 to 9. -/
def int64? (s : String) : Option Int :=
  let value := match s.toList with
    | '-' :: cs => (decimal? cs).map fun n => -(n : Int)
    | '+' :: cs => (decimal? cs).map Int.ofNat
    | cs => (decimal? cs).map Int.ofNat
  value.filter fun n => minInt64 ≤ n && n ≤ maxInt64

/-- Reads an unsigned integer of 64 bits; a minus sign is refused also
before zero. -/
def nat64? (s : String) : Option Nat :=
  let value := match s.toList with
    | '+' :: cs => decimal? cs
    | cs => decimal? cs
  value.filter (· ≤ maxNat64)

/-- The integer of 64 bits that agrees with `n` modulo `2 ^ 64`. -/
def wrapInt64 (n : Int) : Int := n.bmod 18446744073709551616

end AccountCache
