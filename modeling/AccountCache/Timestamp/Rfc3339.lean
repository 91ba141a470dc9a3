import AccountCache.Timestamp

namespace AccountCache

namespace Timestamp

/-- A number as decimal digits, with zeros in front up to a width. -/
def padded (width n : Nat) : List Char :=
  let digits := Nat.toDigits 10 n
  List.replicate (width - digits.length) '0' ++ digits

/-- A fraction of a second, without the zeros at its end. -/
def fractionChars (nanos : Nat) : List Char :=
  if nanos = 0 then [] else '.' :: ((padded 9 nanos).reverse.dropWhile (· == '0')).reverse

def offsetChars (offset : Int) : List Char :=
  if offset = 0 then ['Z']
  else
    (if offset < 0 then '-' else '+') :: padded 2 (offset.natAbs / 3600) ++
      ':' :: padded 2 (offset.natAbs / 60 % 60)

/-- Whether RFC 3339 can write the timestamp: four digits for the year,
whole minutes of offset. -/
def isWritable (t : Timestamp) : Bool :=
  let year := t.localDate.year
  0 ≤ year && year ≤ 9999 && t.offset % 60 == 0 && t.offset.natAbs < 86400

/-- The text of a timestamp that RFC 3339 can write, such as
`2024-01-02T03:04:05.5+01:00`, with the fewest digits of a second
that are exact. -/
def rfc3339? (t : Timestamp) : Option String :=
  if t.isWritable then
    let date := t.localDate
    let second := (t.localSeconds % 86400).toNat
    some <| String.ofList <|
      padded 4 date.year.toNat ++ '-' :: padded 2 date.month ++ '-' :: padded 2 date.day ++
        'T' :: padded 2 (second / 3600) ++ ':' :: padded 2 (second / 60 % 60) ++
        ':' :: padded 2 (second % 60) ++ fractionChars t.subsecNanos ++ offsetChars t.offset
  else none

def digits? : Nat → List Char → Option (Nat × List Char)
  | 0, cs => some (0, cs)
  | n + 1, c :: cs =>
    if c.isDigit then
      (digits? n cs).map fun (rest, cs) => ((c.toNat - '0'.toNat) * Nat.pow 10 n + rest, cs)
    else none
  | _ + 1, [] => none

def expect? (c : Char) : List Char → Option (List Char)
  | c' :: cs => if c' = c then some cs else none
  | [] => none

def fraction? : List Char → Option (Nat × List Char)
  | '.' :: cs =>
    let digits := cs.takeWhile Char.isDigit
    if digits.isEmpty then none
    else
      let nine := (digits ++ List.replicate 9 '0').take 9
      some (nine.foldl (fun n c => 10 * n + (c.toNat - '0'.toNat)) 0, cs.dropWhile Char.isDigit)
  | cs => some (0, cs)

/-- Reads an offset from UTC, which ends the text. -/
def offset? : List Char → Option Int
  | ['Z'] | ['z'] => some 0
  | sign :: cs => do
    guard (sign = '+' ∨ sign = '-')
    let (hour, cs) ← digits? 2 cs
    let cs ← expect? ':' cs
    let (minute, cs) ← digits? 2 cs
    guard (cs = [] ∧ hour ≤ 23 ∧ minute ≤ 59)
    let seconds : Int := hour * 3600 + minute * 60
    return if sign = '-' then -seconds else seconds
  | [] => none

/-- Whether a timestamp is the last nanosecond of a month in UTC. -/
def endsMonth (t : Timestamp) : Bool :=
  let date := t.utc.localDate
  t.nanos % 86400000000000 == 86399999999999 && date.day == Date.daysInMonth date.year date.month

/-- The timestamp of a date, a time of day and an offset, if they
are in range. -/
def ofParts? (date : Date) (hour minute second nanos : Nat) (offset : Int) : Option Timestamp := do
  guard (date.isValid ∧ hour < 24 ∧ minute < 60)
  let leap := second = 60
  let t := ofLocal date (hour * 3600 + minute * 60 + if leap then 59 else second)
    (if leap then 999999999 else nanos) offset
  if leap then
    guard (t.endsMonth ∧ t.utc.localDate.year ≤ 9999)
  else
    guard (second < 60)
  return t

def ofChars? (cs : List Char) : Option Timestamp := do
  let (year, cs) ← digits? 4 cs
  let cs ← expect? '-' cs
  let (month, cs) ← digits? 2 cs
  let cs ← expect? '-' cs
  let (day, cs) ← digits? 2 cs
  let separator ← cs.head?
  guard (separator.toNat < 128)
  let (hour, cs) ← digits? 2 (cs.drop 1)
  let cs ← expect? ':' cs
  let (minute, cs) ← digits? 2 cs
  let cs ← expect? ':' cs
  let (second, cs) ← digits? 2 cs
  let (nanos, cs) ← fraction? cs
  let offset ← offset? cs
  ofParts? ⟨year, month, day⟩ hour minute second nanos offset

/-- Reads the text of a timestamp. Any one ASCII character may stand between
date and time, and digits beyond the nanosecond are dropped. A leap second
stands for the last nanosecond before it, and only where one can occur. -/
def ofRfc3339? (s : String) : Option Timestamp := ofChars? s.toList

end Timestamp

end AccountCache
