import AccountCache.Simulation.World

namespace AccountCache

namespace Cache.Request

def name : Request → String
  | get _ => "get"
  | set _ => "set"
  | setMany _ => "set_multi"
  | delete _ => "delete"
  | increment _ => "increment"
  | expire .. => "expire"
  | ttl _ => "ttl"
  | acquire .. => "acquire"
  | release _ => "release"
  | isHeld _ => "is_held"

/-- The key that is blamed when a request fails. One that may be about
several keys blames none of them, and a word stands in their place. -/
def faultKey : Request → String
  | get key | increment key | expire key _ | ttl key | acquire key .. | isHeld key => key
  | set entry => entry.key
  | setMany _ => "multi"
  | delete _ => "del"
  | release lock => lock.key

end Cache.Request

namespace Database.Request

def name : Request → String
  | createUser .. => "user.create"
  | updateUser _ => "user.update"
  | deleteUser _ => "user.delete_by_id"
  | findUser _ => "user.find_by_id"
  | findUserByEmail _ => "user.find_by_email"
  | findPassword _ => "user.find_password_by_id"
  | updatePassword .. => "user.update_password_by_id"
  | createSession _ => "session.create"
  | findSessionByToken .. => "session.find_by_token"
  | findSession _ => "session.find_by_id"
  | updateTokens .. => "session.update_tokens"
  | deleteSession _ => "session.delete"
  | findGrants => "permission.find_all"
  | createGrant _ => "permission.create"

end Database.Request

namespace Simulation.World

def failCache (w : World) (names : List String) : World :=
  { w with cacheFault := fun r =>
      if names.contains r.name then some (.notRetrievable r.faultKey) else none }

def failDatabase (w : World) (names : List String) : World :=
  { w with databaseFault := fun r =>
      if names.contains r.name then some (.connection "database is down") else none }

end Simulation.World

end AccountCache
