import AccountCache.Binary64
import AccountCache.Text.Integer

namespace AccountCache

namespace Binary64

/-- What follows the mark of an exponent: an optional sign and digits. -/
def exponent? : List Char → Option Int
  | '-' :: cs => (decimal? cs).map fun n => -(n : Int)
  | '+' :: cs => (decimal? cs).map Int.ofNat
  | cs => (decimal? cs).map Int.ofNat

/-- Digits, at least one, with at most one point among them, and an
optional exponent. -/
def ofDigits? (negative : Bool) (cs : List Char) : Option Binary64 := do
  let isMark (c : Char) : Bool := c == 'e' || c == 'E'
  let body := cs.takeWhile (!isMark ·)
  let exponent ← match cs.dropWhile (!isMark ·) with
    | _ :: rest => exponent? rest
    | [] => some 0
  let whole := body.takeWhile (· != '.')
  let fraction := (body.dropWhile (· != '.')).drop 1
  let mantissa ← decimal? (whole ++ fraction)
  return ofDecimal negative mantissa (exponent - fraction.length)

/-- Reads a number without a sign: digits, or a word for what is not finite,
in any case. -/
def ofUnsigned? (negative : Bool) (cs : List Char) : Option Binary64 :=
  let word := String.ofList (cs.map Char.toLower)
  if word = "inf" || word = "infinity" then some (infinity negative)
  else if word = "nan" then some nan
  else ofDigits? negative cs

def ofText? (s : String) : Option Binary64 :=
  match s.toList with
  | '-' :: cs => ofUnsigned? true cs
  | '+' :: cs => ofUnsigned? false cs
  | cs => ofUnsigned? false cs

end Binary64

end AccountCache
