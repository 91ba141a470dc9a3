import AccountCache.Text.Hex
import AccountCache.Text.Utf8

namespace AccountCache

/-- The bytes that a text stands for. A `%` without two digits stands
for itself. -/
def percentDecoded : List Char → List UInt8
  | [] => []
  | '%' :: a :: b :: cs =>
    match hexNumber? [a, b] with
    | some n => n.toUInt8 :: percentDecoded cs
    | none => '%'.toNat.toUInt8 :: percentDecoded (a :: b :: cs)
  | c :: cs => String.utf8EncodeChar c ++ percentDecoded cs

/-- The text that percent-coded text stands for, if its bytes are one. -/
def percentText? (cs : List Char) : Option String := (Bytes.ofList (percentDecoded cs)).text?

/-- The text that percent-coded text stands for, with the replacement
character for stray bytes. -/
def percentTextLossy (cs : List Char) : String :=
  String.ofList ((symbolsOfBytes ⟨(percentDecoded cs).toArray⟩).map (·.getD '\ufffd'))

/-- A name and value of a query, in which `+` is a space. -/
def queryPair (cs : List Char) : String × String :=
  let spaced := cs.map fun c => if c == '+' then ' ' else c
  let name := spaced.takeWhile (· != '=')
  (percentTextLossy name, percentTextLossy (spaced.drop (name.length + 1)))

def queryPairs (query : String) : List (String × String) :=
  ((query.toList.splitOnP (· == '&')).filter (!·.isEmpty)).map queryPair

end AccountCache
