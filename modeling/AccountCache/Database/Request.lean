import AccountCache.Account.Permission
import AccountCache.Account.Session
import AccountCache.Account.User

namespace AccountCache

namespace Database

inductive Error where
  | alreadyExists (entity key : String)
  | connection (reason : String)
  | internal (reason : String)
deriving DecidableEq

def Error.message : Error → String
  | alreadyExists entity key => "Record already exists: " ++ entity ++ "/" ++ key
  | connection reason => "Connection error: " ++ reason
  | internal reason => "Internal error: " ++ reason

/-- What the repositories ask of the database behind them. A missing row is
an answer, not an error. -/
inductive Request where
  | createUser (user : User) (hash : String)
  | updateUser (user : User)
  | deleteUser (id : Uuid)
  | findUser (id : Uuid)
  | findUserByEmail (email : String)
  | findPassword (id : Uuid)
  | updatePassword (id : Uuid) (hash : String)
  /-- Adds a row under an id of the database's choice and yields it. -/
  | createSession (session : Session)
  | findSessionByToken (type : TokenType) (token : String)
  | findSession (id : Int)
  | updateTokens (id : Int) (tokens : SessionTokens)
  | deleteSession (id : Int)
  | findGrants
  /-- Adds a grant, unless it is there. -/
  | createGrant (grant : Grant)
deriving DecidableEq

abbrev Request.Result : Request → Type
  | createUser .. => Unit
  | updateUser _ => Option User
  | deleteUser _ => Option User
  | findUser _ => Option User
  | findUserByEmail _ => Option User
  | findPassword _ => Option String
  | updatePassword .. => Unit
  | createSession _ => Session
  | findSessionByToken .. => Option Session
  | findSession _ => Option Session
  | updateTokens .. => Unit
  | deleteSession _ => Unit
  | findGrants => List Grant
  | createGrant _ => Unit

/-- Whether a request only reads. -/
def Request.isRead : Request → Bool
  | findUser _ | findUserByEmail _ | findPassword _ | findSessionByToken .. | findSession _ |
    findGrants => true
  | _ => false

end Database

end AccountCache
