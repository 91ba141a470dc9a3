import AccountCache.Database.Request

namespace AccountCache

namespace Database

/-- A database kept in memory: users with their password hashes, sessions,
and grants in the order in which they were made. -/
structure Tables where
  users : SortedMap Uuid (User × String) := .empty
  sessions : SortedMap Int Session := .empty
  /-- How many sessions were ever made; the next one gets the
  following id. -/
  sessionCount : Nat := 0
  grants : List Grant := []

namespace Tables

instance : Inhabited Tables := ⟨{}⟩

def putUser (t : Tables) (user : User) (hash : String) : Tables :=
  { t with users := t.users.insert user.id (user, hash) }

def userWithEmail? (t : Tables) (email : String) : Option User :=
  (t.users.values.find? (·.1.email == email)).map (·.1)

def addSession (t : Tables) (s : Session) : Session × Tables :=
  let s := { s with id := (t.sessionCount : Int) + 1 }
  (s, { t with sessions := t.sessions.insert s.id s, sessionCount := t.sessionCount + 1 })

def addGrant (t : Tables) (g : Grant) : Tables :=
  if g ∈ t.grants then t else { t with grants := t.grants ++ [g] }

/-- A session as it is found: the role is not kept. -/
def found (s : Session) : Session := { s with role := "" }

/-- Changes a user's row. The email is kept in lower case, and the
password stays. -/
def updateUser (t : Tables) (now : Timestamp) (user : User) : Option User × Tables :=
  match t.users.find? user.id with
  | none => (none, t)
  | some (_, hash) =>
    let row := { user with email := user.email.map Char.toLower, updatedAt := now }
    (some row, t.putUser row hash)

def updateTokens (t : Tables) (now : Timestamp) (id : Int) (tokens : SessionTokens) :
    Except Error Unit × Tables :=
  match t.sessions.find? id with
  | none => (.error (.internal ("session " ++ toString id ++ " not found")), t)
  | some s =>
    let s := { s with
      accessToken := tokens.accessToken
      refreshToken := tokens.refreshToken
      accessTokenExpiredAt := tokens.accessTokenExpiredAt
      refreshTokenExpiredAt := tokens.refreshTokenExpiredAt
      userAgent := tokens.userAgent
      updatedAt := now }
    (.ok (), { t with sessions := t.sessions.insert id s })

/-- Answers a request at a point of wall-clock time, which is
given in UTC. -/
def serve (t : Tables) (now : Timestamp) : (r : Request) → Except Error r.Result × Tables
  | .createUser user hash =>
    match t.userWithEmail? user.email with
    | some _ => (.error (.alreadyExists "user" user.email), t)
    | none => (.ok (), t.putUser user hash)
  | .updateUser user => let (row, t) := t.updateUser now user; (.ok row, t)
  | .deleteUser id =>
    (.ok ((t.users.find? id).map (·.1)), { t with users := t.users.erase id })
  | .findUser id => (.ok ((t.users.find? id).map (·.1)), t)
  | .findUserByEmail email => (.ok (t.userWithEmail? email), t)
  | .findPassword id => (.ok ((t.users.find? id).map (·.2)), t)
  | .updatePassword id hash =>
    match t.users.find? id with
    | some (user, _) => (.ok (), t.putUser user hash)
    | none => (.ok (), t)
  | .createSession s => let (s, t) := t.addSession s; (.ok s, t)
  | .findSessionByToken type token =>
    (.ok ((t.sessions.values.find? (·.token type == token)).map found), t)
  | .findSession id => (.ok ((t.sessions.find? id).map found), t)
  | .updateTokens id tokens => t.updateTokens now id tokens
  | .deleteSession id => (.ok (), { t with sessions := t.sessions.erase id })
  | .findGrants => (.ok t.grants, t)
  | .createGrant g => (.ok (), t.addGrant g)

end Tables

end Database

end AccountCache
