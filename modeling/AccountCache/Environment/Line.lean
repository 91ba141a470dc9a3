import AccountCache.Text.Blank

namespace AccountCache

namespace Environment

/-- What the end of a piece of text is inside of. A line feed ends a line
only outside of quotes, so that a quoted value may go over several lines
of the text. -/
inductive Inside where
  | plain
  /-- Plain text, right after white space. -/
  | blank
  | escape
  | single
  | singleEscape
  | double
  | doubleEscape
deriving DecidableEq

namespace Inside

def opened (c : Char) : Inside :=
  match c with
  | '\\' => escape
  | '"' => double
  | '\'' => single
  | _ => plain

def step (i : Inside) (c : Char) : Inside :=
  match i with
  | plain => if isBlank c && c != '\n' && c != '\r' then blank else opened c
  | blank => opened c
  | escape => plain
  | single => if c == '\\' then singleEscape else if c == '\'' then plain else single
  | singleEscape => single
  | double => if c == '\\' then doubleEscape else if c == '"' then plain else double
  | doubleEscape => double

end Inside

/-- How a piece of text ends: inside of something, or with a comment, before
which some of it was kept. -/
inductive Ending where
  | inside (i : Inside)
  | comment (kept : List Char)

/-- Follows a piece of text to its end; `before` is what was passed, last
first. A comment begins after white space only. -/
def ending (i : Inside) (before : List Char) : List Char → Ending
  | [] => .inside i
  | c :: cs =>
    if i = .blank && c == '#' then .comment before.reverse else ending (i.step c) (c :: before) cs

/-- A text divided after each line feed. -/
def pieces (cs : List Char) : List (List Char) :=
  let (last, done) := cs.foldr (fun c (p : List Char × List (List Char)) =>
    if c == '\n' then ([c], if p.1.isEmpty then p.2 else p.1 :: p.2) else (c :: p.1, p.2)) ([], [])
  if last.isEmpty then done else last :: done

/-- A line without the line feed at its end. -/
def withoutEnd (cs : List Char) : List Char :=
  match cs.reverse with
  | '\n' :: '\r' :: rest => rest.reverse
  | '\n' :: rest => rest.reverse
  | _ => cs

/-- The lines that pieces of text make, after an open line. A line that
stays open to the end of the file does not count. -/
def lines (before : List Char) (i : Inside) : List (List Char) → List (List Char)
  | [] => []
  | piece :: rest =>
    if ((before ++ piece).dropWhile isBlank).head? == some '#' then [] :: lines [] .plain rest
    else
      match ending i [] piece with
      | .comment kept => (before ++ kept) :: lines [] .plain rest
      | .inside .plain => withoutEnd (before ++ piece) :: lines [] .plain rest
      | .inside i => lines (before ++ piece) i rest

/-- The lines of a file, without comments. They need not be the lines of the
text, of which quotes join some. -/
def linesOf (text : String) : List (List Char) := lines [] .plain (pieces text.toList)

end Environment

end AccountCache
