import AccountCache.Text.Hex
import AccountCache.Text.Integer
import AccountCache.Text.Scan
import AccountCache.Timestamp.Rfc3339
import AccountCache.Toml.Value

namespace AccountCache

namespace Toml

/-- The digits of a number, without the underscores, each of which has to be
between digits. -/
def digits? (isDigit : Char → Bool) (cs : List Char) : Option (List Char) :=
  let groups := cs.splitOnP (· == '_')
  if groups.all fun group => !group.isEmpty && group.all isDigit then some groups.flatten else none

/-- Digits without a zero in front. -/
def wholeDigits? (cs : List Char) : Option (List Char) :=
  (digits? Char.isDigit cs).filter fun ds => ds.length == 1 || ds.head? != some '0'

/-- A sign, if there is one, and what follows. -/
def sign (cs : List Char) : Bool × List Char :=
  match cs with
  | '-' :: cs => (true, cs)
  | '+' :: cs => (false, cs)
  | cs => (false, cs)

def integer? (cs : List Char) : Option Value := do
  let (negative, cs) := sign cs
  let size : Int := (← decimal? (← wholeDigits? cs))
  let n := if negative then -size else size
  if minInt64 ≤ n && n ≤ maxInt64 then some (.integer n) else none

/-- An integer of another base. -/
def basedInteger? (base : Nat) (cs : List Char) : Option Value := do
  let ds ← digits? (fun c => (hexValue? c).any (· < base)) cs
  let n := ds.foldl (fun n c => base * n + (hexValue? c).getD 0) 0
  if (n : Int) ≤ maxInt64 then some (.integer n) else none

def exponent? (cs : List Char) : Option Int := do
  let (negative, cs) := sign cs
  let size : Int := (← decimal? (← digits? Char.isDigit cs))
  return if negative then -size else size

/-- A number with a fraction, or an exponent, or both. One beyond all finite
numbers is an error. -/
def float? (cs : List Char) : Option Value := do
  let (negative, cs) := sign cs
  let isMark (c : Char) : Bool := c == 'e' || c == 'E'
  guard (cs.any fun c => c == '.' || isMark c)
  let body := cs.takeWhile (!isMark ·)
  let exponent ← match cs.dropWhile (!isMark ·) with
    | _ :: rest => exponent? rest
    | [] => some 0
  let whole ← wholeDigits? (body.takeWhile (· != '.'))
  let fraction ← match body.dropWhile (· != '.') with
    | _ :: rest => digits? Char.isDigit rest
    | [] => some []
  let mantissa ← decimal? (whole ++ fraction)
  match Binary64.ofDecimal negative mantissa (exponent - fraction.length) with
  | .infinity _ => none
  | x => some (.float x)

def specialFloat? (cs : List Char) : Option Value :=
  let (negative, cs) := sign cs
  if cs == "inf".toList then some (.float (.infinity negative))
  else if cs == "nan".toList then some (.float .nan)
  else none

def date : Scan String := do
  let year ← Timestamp.digits? 4
  Scan.expect '-'
  let month ← Timestamp.digits? 2
  Scan.expect '-'
  let day ← Timestamp.digits? 2
  guard (Date.isValid ⟨year, month, day⟩)
  return String.ofList <|
    Timestamp.padded 4 year ++ '-' :: Timestamp.padded 2 month ++ '-' :: Timestamp.padded 2 day

/-- The fraction of a second as it is written, if one is. It is cut to
nine digits, and of the zeros at its end only one that follows the
point is kept. -/
def secondFraction : Scan (List Char) := do
  if ← Scan.accept "." then
    let digits ← Scan.takeWhile Char.isDigit
    guard !digits.isEmpty
    let kept := ((digits.take 9).reverse.dropWhile (· == '0')).reverse
    return '.' :: if kept.isEmpty then ['0'] else kept
  else return []

/-- The text of the seconds of a time of day, which may be left out. A
minute may have a leap second. -/
def seconds : Scan (List Char) := do
  if ← Scan.accept ":" then
    let second ← Timestamp.digits? 2
    guard (second ≤ 60)
    return ':' :: Timestamp.padded 2 second ++ (← secondFraction)
  else return []

def timeOfDay : Scan String := do
  let hour ← Timestamp.digits? 2
  Scan.expect ':'
  let minute ← Timestamp.digits? 2
  guard (hour ≤ 23 && minute ≤ 59)
  return String.ofList <|
    Timestamp.padded 2 hour ++ ':' :: Timestamp.padded 2 minute ++ (← seconds)

/-- The text of an offset from UTC, which ends the value. -/
def offset : Scan String := do
  let cs ← Scan.rest
  set ([] : List Char)
  let seconds ← Timestamp.offset? cs
  if cs == ['Z'] || cs == ['z'] then return "Z"
  else if seconds = 0 then return "+00:00"
  else return String.ofList (Timestamp.offsetChars seconds)

/-- A time of day, alone or after a date, or a date alone. -/
def time : Scan String := do
  if ((← Scan.rest).drop 2).head? == some ':' then timeOfDay
  else
    let d ← date
    if ← Scan.isAtEnd then return d
    else
      let separator ← Scan.next
      guard (separator == 'T' || separator == 't' || separator == ' ')
      let t ← timeOfDay
      if ← Scan.isAtEnd then return d ++ "T" ++ t
      else return d ++ "T" ++ t ++ (← offset)

/-- Whether a value starts as dates or times do. -/
def startsTime (cs : List Char) : Bool :=
  let digits := (cs.takeWhile Char.isDigit).length
  (digits == 4 && cs[4]? == some '-') || (digits == 2 && cs[2]? == some ':')

def isScalarChar (c : Char) : Bool := c.isAlphanum || "+-._:".toList.contains c

/-- The value that a text without quotes stands for. -/
def scalarOf? (cs : List Char) : Option Value :=
  if cs == "true".toList then some (.boolean true)
  else if cs == "false".toList then some (.boolean false)
  else if startsTime cs then (Scan.all? time cs).map .time
  else
    match cs with
    | '0' :: 'x' :: ds => basedInteger? 16 ds
    | '0' :: 'o' :: ds => basedInteger? 8 ds
    | '0' :: 'b' :: ds => basedInteger? 2 ds
    | cs => specialFloat? cs <|> integer? cs <|> float? cs

/-- Reads a value without quotes. After a date a space may stand, and a
time of day. -/
def scalar : Scan Value := do
  let cs ← Scan.takeWhile isScalarChar
  let rest ← Scan.rest
  let goesOn := rest.head? == some ' ' && (rest.drop 1).head?.any Char.isDigit
  if startsTime cs && cs.length == 10 && goesOn then
    let _ ← Scan.next
    let time ← Scan.takeWhile isScalarChar
    scalarOf? (cs ++ ' ' :: time)
  else scalarOf? cs

end Toml

end AccountCache
