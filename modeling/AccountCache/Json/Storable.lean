import AccountCache.Json.Decode
import AccountCache.Json.Reader
import AccountCache.Json.Writer
import AccountCache.Timestamp.Rfc3339
import AccountCache.Uuid

namespace AccountCache

/-- Values that are kept as JSON texts. A value without a JSON form cannot
be kept, and a text that is none of a value is corrupt. -/
class Storable (α : Type) where
  toJson? : α → Option Json
  ofJson? : Json → Option α

namespace Storable

variable {α : Type} [Storable α]

def encode? (a : α) : Option Bytes := (toJson? a).map fun j => .ofText j.text

def decode? (b : Bytes) : Option α := (Json.ofBytes? b).bind ofJson?

end Storable

instance : Storable String where
  toJson? s := some (.ofText s)
  ofJson? := Json.text?

instance : Storable Uuid where
  toJson? u := some (.ofText u.text)
  ofJson? j := j.text?.bind Uuid.ofText?

instance : Storable Timestamp where
  toJson? t := t.rfc3339?.map .ofText
  ofJson? j := j.text?.bind Timestamp.ofRfc3339?

end AccountCache
