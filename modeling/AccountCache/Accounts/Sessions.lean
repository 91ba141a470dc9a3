import AccountCache.Accounts.Users

namespace AccountCache

namespace Accounts

variable (a : Accounts)

/-- The keys under which a session may be cached: both tokens and the id. -/
def sessionKeys (id : Int) (accessToken refreshToken : String) : List String :=
  [Key.token accessToken, Key.token refreshToken, Key.session id]

/-- Caches a session under its three keys at once. Each copy is given the
life that is left to the token that leads to it, and the copy under the id
that of the access token. -/
def cacheSession (s : Session) : Action Unit := do
  match Storable.encode? s with
  | none => Action.warn "failed to encode session"
  | some bytes =>
    let accessTtl := s.accessTokenRemaining (← Action.perform .wallClock)
    let refreshTtl := s.refreshTokenRemaining (← Action.perform .wallClock)
    match ← a.cache.storeMany [⟨Key.token s.accessToken, bytes, accessTtl⟩,
      ⟨Key.session s.id, bytes, accessTtl⟩, ⟨Key.token s.refreshToken, bytes, refreshTtl⟩] with
    | .ok _ => return ()
    | .error _ => Action.warn "failed to cache session"

def createSession (s : Session) : Operation Session := do
  let created ← Operation.database (.createSession s)
  a.cacheSession created
  return created

/-- Gives a loaded session the role of its owner and caches it. A session
without an owner does not count, and nothing is cached for it. -/
def completeSession (key : String) : Option Session → Operation (Option Session)
  | none => do
    a.fillAbsent key
    return none
  | some s => do
    match ← a.findUser s.userId with
    | none =>
      Action.warn "session owner not found"
      return none
    | some user =>
      let s := { s with role := user.role }
      a.cacheSession s
      return some s

def findSessionByToken (type : TokenType) (token : String) : Operation (Option Session) :=
  a.read (Key.token token) do
    let found ← Operation.database (.findSessionByToken type token)
    a.completeSession (Key.token token) found

def findSession (id : Int) : Operation (Option Session) :=
  a.read (Key.session id) do
    let found ← Operation.database (.findSession id)
    a.completeSession (Key.session id) found

/-- Whether a token leads to a cached session. The database is not asked. -/
def checkToken (token : String) : Action Bool := do
  match ← a.cache.get (Key.token token) with
  | some value => return !value.isAbsent
  | none => return false

/-- Gives a session new tokens, and yields it as it is read back. The
keys of the old pair, as the caller knows it, and of the new pair are
dropped before. -/
def refreshSession (old : Session) (tokens : SessionTokens) : Operation (Option Session) := do
  Operation.database (.updateTokens old.id tokens)
  a.invalidate (sessionKeys old.id old.accessToken old.refreshToken ++
    [Key.token tokens.accessToken, Key.token tokens.refreshToken])
  a.findSession old.id

def deleteSession (s : Session) : Operation Unit := do
  Operation.database (.deleteSession s.id)
  a.invalidate (sessionKeys s.id s.accessToken s.refreshToken)

end Accounts

end AccountCache
