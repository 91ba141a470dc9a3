import AccountCache.Json.Token

namespace AccountCache

namespace Json

/-- An open array or object around a value: what came before the value, last
first. The reader keeps these on a stack of its own, so that a text may nest
to any depth. -/
inductive Frame where
  | item (before : List Json)
  | member (before : List (Option String × Json)) (key : Option String)

/-- What a reader of values has to see next. -/
inductive Builder where
  | value (stack : List Frame)
  /-- The first item of an array, or its end. -/
  | firstItem (stack : List Frame)
  /-- The first key of an object, or its end. -/
  | firstKey (stack : List Frame)
  | key (before : List (Option String × Json)) (stack : List Frame)
  | colon (before : List (Option String × Json)) (key : Option String) (stack : List Frame)
  /-- What comes after a value: a comma or the end of what is around it. -/
  | after (value : Json) (stack : List Frame)

namespace Builder

def begin (stack : List Frame) : Token → Option Builder
  | .null => some (.after .null stack)
  | .bool b => some (.after (.bool b) stack)
  | .number n => some (.after (.number n) stack)
  | .string s => some (.after (.string s) stack)
  | .beginArray => some (.firstItem stack)
  | .beginObject => some (.firstKey stack)
  | _ => none

def step : Builder → Token → Option Builder
  | .value stack, t => begin stack t
  | .firstItem stack, .endArray => some (.after (.array []) stack)
  | .firstItem stack, t => begin (.item [] :: stack) t
  | .firstKey stack, .endObject => some (.after (.object []) stack)
  | .firstKey stack, .string name => some (.colon [] name stack)
  | .key before stack, .string name => some (.colon before name stack)
  | .colon before name stack, .colon => some (.value (.member before name :: stack))
  | .after v (.item before :: stack), .comma => some (.value (.item (v :: before) :: stack))
  | .after v (.item before :: stack), .endArray =>
    some (.after (.array (v :: before).reverse) stack)
  | .after v (.member before name :: stack), .comma => some (.key ((name, v) :: before) stack)
  | .after v (.member before name :: stack), .endObject =>
    some (.after (.object ((name, v) :: before).reverse) stack)
  | _, _ => none

def finish : Builder → Option Json
  | .after v [] => some v
  | _ => none

end Builder

/-- The value that a sequence of tokens writes, if it writes exactly one. -/
def ofTokens? (tokens : List Token) : Option Json :=
  (tokens.foldlM Builder.step (.value [])).bind Builder.finish

/-- Reads a JSON text, given as bytes. -/
def ofBytes? (b : Bytes) : Option Json := (tokens? (symbolsOfBytes b)).bind ofTokens?

/-- Reads a JSON text. -/
def ofString? (s : String) : Option Json := (tokens? (s.toList.map some)).bind ofTokens?

end Json

end AccountCache
