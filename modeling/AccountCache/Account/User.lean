import AccountCache.Json.Storable

namespace AccountCache

/-- A registered account. The hash of its password is kept beside it and is
no part of it. -/
structure User where
  id : Uuid
  name : String
  email : String
  role : String
  phoneNumber : String
  createdAt : Timestamp
  updatedAt : Timestamp
deriving DecidableEq

namespace User

def toJson? (u : User) : Option Json := do
  let createdAt ← Storable.toJson? u.createdAt
  let updatedAt ← Storable.toJson? u.updatedAt
  return .ofMembers [
    ("id", .ofText u.id.text), ("name", .ofText u.name), ("email", .ofText u.email),
    ("role", .ofText u.role), ("phone_number", .ofText u.phoneNumber),
    ("created_at", createdAt), ("updated_at", updatedAt)]

def fieldNames : List String :=
  ["id", "name", "email", "role", "phone_number", "created_at", "updated_at"]

def ofJson? (j : Json) : Option User := do
  let [id, name, email, role, phoneNumber, createdAt, updatedAt] ← j.fields? fieldNames | none
  return {
    id := ← Json.required Storable.ofJson? id
    name := ← Json.required Json.text? name
    email := ← Json.required Json.text? email
    role := ← Json.required Json.text? role
    phoneNumber := ← Json.required Json.text? phoneNumber
    createdAt := ← Json.required Storable.ofJson? createdAt
    updatedAt := ← Json.required Storable.ofJson? updatedAt }

instance : Storable User := ⟨toJson?, ofJson?⟩

end User

end AccountCache
