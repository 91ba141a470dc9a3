import AccountCache.Text.Hex
import AccountCache.Text.Integer

namespace AccountCache

/-- The parts of a URL. Without a host, `host` is none; a path without a
slash in front, which is not divided into segments, is none too. -/
structure Url where
  scheme : String
  /-- Not decoded, as the password, the segments and the query are not. -/
  username : List Char
  password : Option (List Char)
  host : Option String
  port : Option Nat
  segments : Option (List String)
  query : Option String
deriving DecidableEq

namespace Url

def isSchemeChar (c : Char) : Bool := c.isAlphanum || c == '+' || c == '-' || c == '.'

/-- The scheme of a URL in lower case, and what follows its colon. -/
def scheme? (cs : List Char) : Option (String × List Char) :=
  let name := cs.takeWhile isSchemeChar
  match cs.dropWhile isSchemeChar with
  | ':' :: rest =>
    if name.head?.any Char.isAlpha then some (String.ofList (name.map Char.toLower), rest) else none
  | _ => none

def endsAuthority (c : Char) : Bool := c == '/' || c == '?' || c == '#'

/-- Characters that no host may have. -/
def isForbiddenInHost (c : Char) : Bool :=
  c.toNat == 0 || " \t\n\r#/:<>?@[\\]^|".toList.contains c

/-- A number of one byte in an address, without zeros in front. -/
def isOctet (cs : List Char) : Bool :=
  (decimal? cs).any fun n => n ≤ 255 && cs.length == (Nat.toDigits 10 n).length

/-- How many of the eight groups of an address a text fills; the last one of
an address may be four octets, which fill two. -/
def groupWidth? (last : Bool) (cs : List Char) : Option Nat :=
  if last && cs.contains '.' then
    let octets := cs.splitOnP (· == '.')
    if octets.length = 4 && octets.all isOctet then some 2 else none
  else if 1 ≤ cs.length && cs.length ≤ 4 && (cs.all fun c => (hexValue? c).isSome) then some 1
  else none

/-- How many groups a part of an address fills that is divided by colons. -/
def groupsWidth? (last : Bool) (cs : List Char) : Option Nat :=
  if cs.isEmpty then some 0
  else
    let groups := cs.splitOnP (· == ':')
    let width? (g : List Char × Nat) := groupWidth? (last && g.2 + 1 == groups.length) g.1
    (groups.zipIdx.mapM width?).map fun (ns : List Nat) => ns.foldl (· + ·) 0

/-- Splits a text at the first double colon. -/
def splitDoubleColon? : List Char → Option (List Char × List Char)
  | ':' :: ':' :: rest => some ([], rest)
  | c :: rest => (splitDoubleColon? rest).map fun (before, after) => (c :: before, after)
  | [] => none

/-- Whether a text is an address of eight groups; a double colon stands for
one group or more. -/
def isIpv6 (cs : List Char) : Bool :=
  match splitDoubleColon? cs with
  | none => !cs.isEmpty && groupsWidth? true cs == some 8
  | some (before, after) =>
    match groupsWidth? false before, groupsWidth? true after with
    | some m, some n => m + n ≤ 7
    | _, _ => false

/-- The host that a text names, if the text is one. The empty text
names none. -/
def host? (cs : List Char) : Option (Option String) :=
  match cs with
  | [] => some none
  | '[' :: rest =>
    if rest.getLast? == some ']' && isIpv6 rest.dropLast then some (some (String.ofList cs))
    else none
  | cs => if cs.any isForbiddenInHost then none else some (some (String.ofList cs))

/-- Divides a text behind its host. A colon in brackets does not
end the host. -/
def spanHost (inBrackets : Bool) : List Char → List Char × List Char
  | [] => ([], [])
  | c :: rest =>
    if endsAuthority c || (c == ':' && !inBrackets) then ([], c :: rest)
    else
      let (host, rest) := spanHost ((inBrackets || c == '[') && c != ']') rest
      (c :: host, rest)

/-- Reads a port, up to the end of the authority. -/
def port? (cs : List Char) : Option (Option Nat × List Char) :=
  let digits := cs.takeWhile Char.isDigit
  let rest := cs.dropWhile Char.isDigit
  if !rest.head?.all fun c => endsAuthority c || c == '\\' then none
  else if digits.isEmpty then some (none, rest)
  else ((decimal? digits).filter (· ≤ 65535)).map fun n => (some n, rest)

/-- Splits a text at the last of its characters that is `at_`. -/
def splitLast? (at_ : Char) (cs : List Char) : Option (List Char × List Char) :=
  if cs.contains at_ then
    let after := (cs.reverse.takeWhile (· != at_)).reverse
    some (cs.take (cs.length - after.length - 1), after)
  else none

def isSingleDot (s : List Char) : Bool := s == ['.'] || s.map Char.toLower == "%2e".toList

def isDoubleDot (s : List Char) : Bool :=
  ["..", ".%2e", "%2e.", "%2e%2e"].contains (String.ofList (s.map Char.toLower))

/-- Whether a segment names a drive, such as `C:` or `C|`. -/
def isDriveLetter (s : List Char) : Bool :=
  match s with
  | [letter, mark] => letter.isAlpha && (mark == ':' || mark == '|')
  | _ => false

/-- Goes up one level. Segments are the last one first, and nothing is
above a drive. -/
def upper (done : List String) : List String :=
  if done.head?.any fun s => isDriveLetter s.toList then done else done.drop 1

def resolveDots (done : List String) : List (List Char) → List String
  | [] => done.reverse
  | s :: rest =>
    if isDoubleDot s then resolveDots (if rest.isEmpty then "" :: upper done else upper done) rest
    else if isSingleDot s then resolveDots (if rest.isEmpty then "" :: done else done) rest
    else resolveDots (String.ofList s :: done) rest

/-- The path and the query of what follows the authority. -/
def pathAndQuery (cs : List Char) : List Char × Option String :=
  let path := cs.takeWhile fun c => c != '?' && c != '#'
  match cs.dropWhile fun c => c != '?' && c != '#' with
  | '?' :: query => (path, some (String.ofList (query.takeWhile (· != '#'))))
  | _ => (path, none)

/-- The segments of a path that starts with a slash or is made to. -/
def segmentsOf (path : List Char) : List String :=
  resolveDots [] ((match path with | '/' :: rest => rest | path => path).splitOnP (· == '/'))

/-- Username and password, which a colon divides. An empty
password is none. -/
def userinfo (cs : List Char) : List Char × Option (List Char) :=
  let username := cs.takeWhile (· != ':')
  match cs.dropWhile (· != ':') with
  | _ :: c :: password => (username, some (c :: password))
  | _ => (username, none)

/-- Reads what follows the two slashes of a URL. -/
def ofAuthority? (scheme : String) (cs : List Char) : Option Url := do
  let authority := cs.takeWhile fun c => !endsAuthority c
  let after := cs.dropWhile fun c => !endsAuthority c
  let (info, hostAndPort) := (splitLast? '@' authority).getD ([], authority)
  let (username, password) := userinfo info
  if (splitLast? '@' authority).isSome && info.isEmpty && hostAndPort.isEmpty && !after.isEmpty then
    failure
  let (hostText, rest) := spanHost false (hostAndPort ++ after)
  let host ← host? hostText
  if host.isNone && (!username.isEmpty || password.isSome || rest.head? == some ':') then failure
  let (port, rest) ← match rest with
    | ':' :: rest => port? rest
    | rest => some (none, rest)
  let (path, query) := pathAndQuery rest
  let segments := if path.isEmpty then none else segmentsOf path
  return ⟨scheme, username, password, host, port, segments, query⟩

/-- Reads a URL of a scheme that has no rules of its own, as browsers do:
blanks around the text and line breaks within it do not count, and the
scheme is in lower case. -/
def ofText? (s : String) : Option Url := do
  let isBlank (c : Char) : Bool := c.toNat ≤ 0x20
  let trimmed := ((s.toList.dropWhile isBlank).reverse.dropWhile isBlank).reverse
  let cs := trimmed.filter fun c => c != '\t' && c != '\n' && c != '\r'
  let (scheme, rest) ← scheme? cs
  match rest with
  | '/' :: '/' :: rest => ofAuthority? scheme rest
  | rest =>
    let (path, query) := pathAndQuery rest
    let segments := if path.head? == some '/' then some (segmentsOf path) else none
    return ⟨scheme, [], none, none, none, segments, query⟩

end Url

end AccountCache
