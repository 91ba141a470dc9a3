import AccountCache.Json.Basic
import AccountCache.Text.Hex

namespace AccountCache

namespace Json

/-- A character inside a string: with a short escape where there is one, and
by its code if it is a control. Everything else stands as it is. -/
def charText (c : Char) : List Char :=
  match c with
  | '"' => ['\\', '"']
  | '\\' => ['\\', '\\']
  | '\x08' => ['\\', 'b']
  | '\x0c' => ['\\', 'f']
  | '\n' => ['\\', 'n']
  | '\r' => ['\\', 'r']
  | '\t' => ['\\', 't']
  | c => if c.toNat < 0x20 then '\\' :: 'u' :: hexDigits 4 c.toNat else [c]

def stringText (s : String) : List Char := '"' :: s.toList.flatMap charText ++ ['"']

/-- A string that is not text is written as the replacement character. -/
def anyStringText (s : Option String) : List Char := stringText (s.getD "\ufffd")

def numberText (n : Number) : List Char :=
  (if n.negative then ['-'] else []) ++ Nat.toDigits 10 n.whole ++
    (if n.fraction.isEmpty then [] else '.' :: n.fraction) ++
    ((n.exponent.map fun e => 'e' :: (toString e).toList).getD [])

mutual

def chars : Json → List Char
  | .null => ['n', 'u', 'l', 'l']
  | .bool true => ['t', 'r', 'u', 'e']
  | .bool false => ['f', 'a', 'l', 's', 'e']
  | .number n => numberText n
  | .string s => anyStringText s
  | .array [] => ['[', ']']
  | .array (item :: items) => '[' :: chars item ++ itemChars items
  | .object [] => ['\x7b', '\x7d']
  | .object ((key, value) :: members) =>
    '\x7b' :: anyStringText key ++ ':' :: chars value ++ memberChars members

/-- The items of an array after the first, and its end. -/
def itemChars : List Json → List Char
  | [] => [']']
  | item :: items => ',' :: chars item ++ itemChars items

/-- The members of an object after the first, and its end. -/
def memberChars : List (Option String × Json) → List Char
  | [] => ['\x7d']
  | (key, value) :: members => ',' :: anyStringText key ++ ':' :: chars value ++ memberChars members

end

def text (j : Json) : String := String.ofList j.chars

end Json

end AccountCache
