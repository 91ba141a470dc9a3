import AccountCache.Toml.Statement

namespace AccountCache

namespace Toml

/-- A document that is being read, and the path of the last header. -/
structure Draft where
  root : Table
  path : List String

namespace Draft

def empty : Draft := ⟨[], []⟩

/-- Adds a header to the table around it. -/
def open? (add : String → Table → Option Table) (d : Draft) (key : List String) : Option Draft := do
  let last ← key.getLast?
  let root ← d.root.modifyAt (add last) key.dropLast
  return ⟨root, key⟩

def add? (d : Draft) : Statement → Option Draft
  | .pair key v =>
    (d.root.modifyAt (fun t => t.define v key) d.path).map ({ d with root := · })
  | .header key => d.open? Table.addHeader key
  | .item key => d.open? Table.addItem key

end Draft

def ofString? (text : String) : Option Value := do
  let d ← (← statements? text).foldlM Draft.add? .empty
  return d.root.toValue

end Toml

end AccountCache
