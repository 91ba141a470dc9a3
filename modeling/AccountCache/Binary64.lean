namespace AccountCache

/-- A binary floating-point number of 64 bits. A finite one is a mantissa
shifted by a power of two; all arithmetic on it is exact, and rounded once
at the end. -/
inductive Binary64 where
  | nan
  | infinity (negative : Bool)
  | finite (negative : Bool) (mantissa : Nat) (exponent : Int)
deriving DecidableEq

namespace Binary64

def zero : Binary64 := finite false 0 0

instance : Inhabited Binary64 := ⟨zero⟩

/-- The quotient of two numbers, the first shifted down by a
power of a base. -/
def shifted (base num den : Nat) (shift : Int) : Nat × Nat :=
  (num * Nat.pow base (-shift).toNat, den * Nat.pow base shift.toNat)

/-- A quotient rounded to the nearest number, a half to the even one. -/
def roundEven (num den : Nat) : Nat :=
  let q := num / den
  let r := num % den
  if 2 * r < den || (2 * r == den && q % 2 == 0) then q else q + 1

/-- The power of two that makes the mantissa of a quotient 53 bits long, or
fewer if the quotient is too small for that. -/
def exponentOf (num den : Nat) : Int :=
  let guess : Int := (num.log2 : Int) - den.log2 - 53
  let (n, d) := shifted 2 num den guess
  max (if d * Nat.pow 2 53 ≤ n then guess + 1 else guess) (-1074)

/-- The number nearest to a quotient, a half to the even mantissa. -/
def ofRatio (negative : Bool) (num den : Nat) : Binary64 :=
  if num = 0 then finite negative 0 0
  else
    let exponent := exponentOf num den
    let (n, d) := shifted 2 num den exponent
    let mantissa := roundEven n d
    let (mantissa, exponent) :=
      if mantissa = Nat.pow 2 53 then (Nat.pow 2 52, exponent + 1) else (mantissa, exponent)
    if mantissa = 0 then finite negative 0 0
    else if 971 < exponent then infinity negative
    else finite negative mantissa exponent

/-- The number nearest to a mantissa shifted by a power of ten. Far beyond
the range of all finite numbers, and far below the least, the power does
not matter. -/
def ofDecimal (negative : Bool) (mantissa : Nat) (exponent : Int) : Binary64 :=
  let magnitude := exponent + (Nat.toDigits 10 mantissa).length
  if mantissa = 0 || magnitude < -400 then finite negative 0 0
  else if 400 < magnitude then infinity negative
  else
    let (num, den) := shifted 10 mantissa 1 (-exponent)
    ofRatio negative num den

def ratio (mantissa : Nat) (exponent : Int) : Nat × Nat := shifted 2 mantissa 1 (-exponent)

/-- A finite number times a power of ten, or divided by one if the power is
negative. The power is rounded to a number first, and the result again.
Infinite numbers and powers have no answer. -/
def scale? (x : Binary64) (power : Int) : Option Binary64 :=
  match x, ofDecimal false 1 power.natAbs with
  | finite negative mantissa exponent, finite _ mantissa' exponent' =>
    let (num, den) := ratio mantissa exponent
    let (num', den') := ratio mantissa' exponent'
    if 0 ≤ power then some (ofRatio negative (num * num') (den * den'))
    else some (ofRatio negative (num * den') (den * num'))
  | _, _ => none

def isZero : Binary64 → Bool
  | finite _ mantissa _ => mantissa == 0
  | _ => false

/-- The nearest integer between two bounds, a half away from zero; a number
that is none counts as zero. -/
def roundWithin (low high : Int) : Binary64 → Int
  | nan => 0
  | infinity negative => if negative then low else high
  | finite negative mantissa exponent =>
    let (num, den) := ratio mantissa exponent
    let size : Int := ((2 * num + den) / (2 * den) : Nat)
    max low (min high (if negative then -size else size))

/-- How many digits the whole part of a quotient has; for one below a tenth,
how many zeros follow the point, as a negative number. -/
def magnitude (num den : Nat) : Int :=
  ((Nat.toDigits 10 (num * Nat.pow 10 400 / den)).length : Int) - 400

/-- The digits nearest to a number among those of a given count that read
back as it, with the power of ten of the last; of two that are equally near
the greater. A power of ten is the digit one. -/
def digits? (mantissa : Nat) (exponent : Int) (count : Nat) : Option (Nat × Int) :=
  let (num, den) := ratio mantissa exponent
  let unit := magnitude num den - count
  let (n, d) := shifted 10 num den unit
  let low := n / d
  let readsBack (m : Nat) : Bool := ofDecimal false m unit == finite false mantissa exponent
  let lowIsNearer := 2 * n < (2 * low + 1) * d
  if readsBack low && (lowIsNearer || !readsBack (low + 1)) then some (low, unit)
  else if readsBack (low + 1) then
    some (if low + 1 = Nat.pow 10 count then (1, unit + count) else (low + 1, unit))
  else none

/-- The fewest digits that read back as a number; 17 are always enough. -/
def shortest (mantissa : Nat) (exponent : Int) : Nat × Int :=
  ((List.range 17).findSome? fun n => digits? mantissa exponent (n + 1)).getD (mantissa, 0)

/-- Digits, the last of which counts a power of ten, without an exponent. -/
def positional (digits : Nat) (unit : Int) : String :=
  if 0 ≤ unit then toString (digits * Nat.pow 10 unit.toNat)
  else
    let places := (-unit).toNat
    let cs := Nat.toDigits 10 digits
    let cs := List.replicate (places + 1 - cs.length) '0' ++ cs
    String.ofList (cs.take (cs.length - places) ++ '.' :: cs.drop (cs.length - places))

/-- A number as text: the fewest digits that read back, without an exponent,
and without a point if it is whole. -/
def text : Binary64 → String
  | nan => "NaN"
  | infinity negative => if negative then "-inf" else "inf"
  | finite negative mantissa exponent =>
    let sign := if negative then "-" else ""
    if mantissa = 0 then sign ++ "0"
    else
      let (digits, unit) := shortest mantissa exponent
      sign ++ positional digits unit

end Binary64

end AccountCache
