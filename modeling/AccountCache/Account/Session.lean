import AccountCache.Json.Storable

namespace AccountCache

/-- Which token of a session's pair is meant. -/
inductive TokenType where
  | access
  | refresh
deriving DecidableEq

namespace TokenType

def name : TokenType → String
  | access => "access"
  | refresh => "refresh"

def ofName? (s : String) : Option TokenType :=
  if s = "access" then some access else if s = "refresh" then some refresh else none

/-- The name of a token type, alone or as the only key of an object with the
value null; so a variant without data may be written. -/
def ofJson? : Json → Option TokenType
  | .string s => s.bind ofName?
  | .object [(s, .null)] => s.bind ofName?
  | _ => none

instance : Storable TokenType := ⟨fun t => some (.ofText t.name), ofJson?⟩

end TokenType

/-- A login session with its pair of tokens. Its role is the owner's
and comes with the session when that is loaded; the backing store does
not keep it. -/
structure Session where
  id : Int
  userId : Uuid
  accessToken : String
  refreshToken : String
  accessTokenExpiredAt : Timestamp
  refreshTokenExpiredAt : Timestamp
  userAgent : String
  role : String
  createdAt : Timestamp
  updatedAt : Timestamp
deriving DecidableEq

/-- The tokens that replace a session's own. -/
structure SessionTokens where
  accessToken : String
  refreshToken : String
  accessTokenExpiredAt : Timestamp
  refreshTokenExpiredAt : Timestamp
  userAgent : String
deriving DecidableEq

namespace Session

def token (s : Session) : TokenType → String
  | .access => s.accessToken
  | .refresh => s.refreshToken

def isAccessTokenExpired (s : Session) (now : Timestamp) : Bool :=
  now.isAfter s.accessTokenExpiredAt

/-- The life that is left to the access token, zero once it has expired. It
is the lifetime that is asked for the copy under this token. -/
def accessTokenRemaining (s : Session) (now : Timestamp) : Duration :=
  s.accessTokenExpiredAt.remaining now

def refreshTokenRemaining (s : Session) (now : Timestamp) : Duration :=
  s.refreshTokenExpiredAt.remaining now

def toJson? (s : Session) : Option Json := do
  let accessTokenExpiredAt ← Storable.toJson? s.accessTokenExpiredAt
  let refreshTokenExpiredAt ← Storable.toJson? s.refreshTokenExpiredAt
  let createdAt ← Storable.toJson? s.createdAt
  let updatedAt ← Storable.toJson? s.updatedAt
  return .ofMembers [
    ("id", .ofInt s.id), ("user_id", .ofText s.userId.text),
    ("access_token", .ofText s.accessToken), ("refresh_token", .ofText s.refreshToken),
    ("access_token_expired_at", accessTokenExpiredAt),
    ("refresh_token_expired_at", refreshTokenExpiredAt),
    ("user_agent", .ofText s.userAgent), ("role", .ofText s.role),
    ("created_at", createdAt), ("updated_at", updatedAt)]

def fieldNames : List String :=
  ["id", "user_id", "access_token", "refresh_token", "access_token_expired_at",
    "refresh_token_expired_at", "user_agent", "role", "created_at", "updated_at"]

/-- Only the role may be missing; it is empty then. -/
def ofJson? (j : Json) : Option Session := do
  let [id, userId, accessToken, refreshToken, accessTokenExpiredAt, refreshTokenExpiredAt,
    userAgent, role, createdAt, updatedAt] ← j.fields? fieldNames | none
  return {
    id := ← Json.required Json.int64? id
    userId := ← Json.required Storable.ofJson? userId
    accessToken := ← Json.required Json.text? accessToken
    refreshToken := ← Json.required Json.text? refreshToken
    accessTokenExpiredAt := ← Json.required Storable.ofJson? accessTokenExpiredAt
    refreshTokenExpiredAt := ← Json.required Storable.ofJson? refreshTokenExpiredAt
    userAgent := ← Json.required Json.text? userAgent
    role := ← Json.defaulting "" Json.text? role
    createdAt := ← Json.required Storable.ofJson? createdAt
    updatedAt := ← Json.required Storable.ofJson? updatedAt }

instance : Storable Session := ⟨toJson?, ofJson?⟩

end Session

end AccountCache
