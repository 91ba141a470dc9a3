import AccountCache.Json.Basic
import AccountCache.Text.Hex
import AccountCache.Text.Utf8

namespace AccountCache

namespace Json

inductive Token where
  | beginObject
  | endObject
  | beginArray
  | endArray
  | colon
  | comma
  | null
  | bool (b : Bool)
  | number (n : Number)
  | string (text : Option String)

/-- A string that is being read: its characters so far, last first, a high
surrogate that waits for the low one, and whether all of it was text. -/
structure PartialText where
  chars : List Char
  high : Option Nat
  isText : Bool

namespace PartialText

def empty : PartialText := ⟨[], none, true⟩

def push (p : PartialText) (c : Char) : PartialText :=
  ⟨c :: p.chars, none, p.isText && p.high.isNone⟩

def pushStray (p : PartialText) : PartialText := ⟨p.chars, none, false⟩

def pushUnit (p : PartialText) (unit : Nat) : PartialText :=
  if 0xd800 ≤ unit ∧ unit < 0xdc00 then ⟨p.chars, some unit, p.isText && p.high.isNone⟩
  else if 0xdc00 ≤ unit ∧ unit < 0xe000 then
    match p.high with
    | some high =>
      ⟨Char.ofNat (0x10000 + (high - 0xd800) * 0x400 + (unit - 0xdc00)) :: p.chars, none, p.isText⟩
    | none => p.pushStray
  else p.push (Char.ofNat unit)

def text? (p : PartialText) : Option String :=
  if p.isText && p.high.isNone then some (String.ofList p.chars.reverse) else none

end PartialText

/-- What a reader of tokens is inside of. Characters are kept last first. -/
inductive Inside where
  | nothing
  | word (chars : List Char)
  | number (chars : List Char)
  | text (part : PartialText)
  | escape (part : PartialText)
  | unicode (part : PartialText) (digits : List Char)

/-- The tokens read so far, last first, and the token that is being read. A
text is read symbol by symbol and never looked at twice. -/
structure Lexer where
  tokens : List Token
  inside : Inside

def isSpace (c : Char) : Bool := c == ' ' || c == '\n' || c == '\t' || c == '\r'

def isWordChar (c : Char) : Bool := 'a' ≤ c && c ≤ 'z'

def isNumberChar (c : Char) : Bool :=
  c.isDigit || c == '-' || c == '+' || c == '.' || c == 'e' || c == 'E'

def digitsValue (cs : List Char) : Nat := cs.foldl (fun n c => 10 * n + (c.toNat - '0'.toNat)) 0

/-- An exponent: a mark, an optional sign and digits. The empty text is
none, which is no error. -/
def exponent? : List Char → Option (Option Int)
  | [] => some none
  | mark :: cs =>
    let (sign, digits) : Int × List Char := match cs with
      | '-' :: digits => (-1, digits)
      | '+' :: digits => (1, digits)
      | digits => (1, digits)
    if (mark == 'e' || mark == 'E') && !digits.isEmpty && digits.all Char.isDigit then
      some (some (sign * digitsValue digits))
    else none

/-- The number that a text writes: no zero stands before other digits, and a
point is between digits. -/
def numberOfChars? (cs : List Char) : Option Number :=
  let (negative, cs) := match cs with
    | '-' :: cs => (true, cs)
    | cs => (false, cs)
  let whole := cs.takeWhile Char.isDigit
  let rest := cs.dropWhile Char.isDigit
  let wholeOk := !whole.isEmpty && (whole.length == 1 || whole.head? != some '0')
  let (fraction, rest, fractionOk) := match rest with
    | '.' :: cs => (cs.takeWhile Char.isDigit, cs.dropWhile Char.isDigit, cs.head?.any Char.isDigit)
    | rest => ([], rest, true)
  if wholeOk && fractionOk then
    (exponent? rest).map fun exponent => ⟨negative, digitsValue whole, fraction, exponent⟩
  else none

def wordToken? (word : String) : Option Token :=
  if word = "null" then some .null
  else if word = "true" then some (.bool true)
  else if word = "false" then some (.bool false)
  else none

/-- The character that a short escape stands for. -/
def escaped? (c : Char) : Option Char :=
  match c with
  | '"' => some '"'
  | '\\' => some '\\'
  | '/' => some '/'
  | 'b' => some '\x08'
  | 'f' => some '\x0c'
  | 'n' => some '\n'
  | 'r' => some '\r'
  | 't' => some '\t'
  | _ => none

namespace Lexer

def initial : Lexer := ⟨[], .nothing⟩

/-- Ends a word or a number that was being read. -/
def settle (l : Lexer) : Option Lexer :=
  match l.inside with
  | .nothing => some l
  | .word cs => (wordToken? (String.ofList cs.reverse)).map fun t => ⟨t :: l.tokens, .nothing⟩
  | .number cs => (numberOfChars? cs.reverse).map fun n => ⟨.number n :: l.tokens, .nothing⟩
  | _ => none

def begin (tokens : List Token) (c : Char) : Option Lexer :=
  let emit (t : Token) : Option Lexer := some ⟨t :: tokens, .nothing⟩
  match c with
  | '\x7b' => emit .beginObject
  | '\x7d' => emit .endObject
  | '[' => emit .beginArray
  | ']' => emit .endArray
  | ':' => emit .colon
  | ',' => emit .comma
  | '"' => some ⟨tokens, .text .empty⟩
  | c =>
    if isSpace c then some ⟨tokens, .nothing⟩
    else if c.isDigit || c == '-' then some ⟨tokens, .number [c]⟩
    else if isWordChar c then some ⟨tokens, .word [c]⟩
    else none

def stepText (tokens : List Token) (part : PartialText) (c : Char) : Option Lexer :=
  if c == '"' then some ⟨.string part.text? :: tokens, .nothing⟩
  else if c == '\\' then some ⟨tokens, .escape part⟩
  else if c.toNat < 0x20 then none
  else some ⟨tokens, .text (part.push c)⟩

def stepChar (l : Lexer) (c : Char) : Option Lexer :=
  match l.inside with
  | .nothing => begin l.tokens c
  | .word cs =>
    if isWordChar c then some ⟨l.tokens, .word (c :: cs)⟩
    else l.settle.bind fun l => begin l.tokens c
  | .number cs =>
    if isNumberChar c then some ⟨l.tokens, .number (c :: cs)⟩
    else l.settle.bind fun l => begin l.tokens c
  | .text part => stepText l.tokens part c
  | .escape part =>
    if c == 'u' then some ⟨l.tokens, .unicode part []⟩
    else (escaped? c).map fun c => ⟨l.tokens, .text (part.push c)⟩
  | .unicode part digits =>
    if digits.length < 3 then (hexValue? c).map fun _ => ⟨l.tokens, .unicode part (c :: digits)⟩
    else (hexNumber? (c :: digits).reverse).map fun unit => ⟨l.tokens, .text (part.pushUnit unit)⟩

/-- Reads a symbol. A stray byte may stand in a string only. -/
def step (l : Lexer) : Symbol → Option Lexer
  | some c => l.stepChar c
  | none =>
    match l.inside with
    | .text part => some ⟨l.tokens, .text part.pushStray⟩
    | _ => none

def finish (l : Lexer) : Option (List Token) := l.settle.map fun l => l.tokens.reverse

end Lexer

/-- The tokens of a text. -/
def tokens? (symbols : List Symbol) : Option (List Token) :=
  (symbols.foldlM Lexer.step Lexer.initial).bind Lexer.finish

end Json

end AccountCache
