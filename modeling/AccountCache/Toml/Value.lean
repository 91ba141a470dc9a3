import AccountCache.Binary64

namespace AccountCache

namespace Toml

/-- A value. Dates and times are kept as the text that they are
written as. -/
inductive Value where
  | string (s : String)
  | integer (n : Int)
  | float (x : Binary64)
  | boolean (b : Bool)
  | time (text : String)
  | array (items : List Value)
  | table (members : List (String × Value))

instance : Inhabited Value := ⟨.table []⟩

end Toml

end AccountCache
