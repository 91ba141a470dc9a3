import AccountCache.Uuid

namespace AccountCache

namespace Key

/-- An entity under its primary key, which is the only place where a copy of
its row is kept. -/
def object (entity id : String) : String := "cache:object:" ++ entity ++ ":id:" ++ id

/-- A primary key under a natural key of its entity. Such entries lead to an
entity and hold no copy of it. -/
def natural (entity name : String) : String := "cache:id:" ++ entity ++ ":" ++ name

/-- The lock that guards a key. It is kept where entries are kept, so no key
of an entry may look like one. -/
def lock (key : String) : String := "lock:" ++ key

def user (id : Uuid) : String := object "user" id.text

def email (email : String) : String := natural "user_email" email

def password (id : Uuid) : String := "cache:password:id:" ++ id.text

/-- The count of failed logins with an email. -/
def loginAttempts (email : String) : String :=
  "cache:login_attempts:email_password:user_email:" ++ email

def session (id : Int) : String := object "session" (toString id)

def token (token : String) : String := natural "session_token" token

def permission : String := "cache:object:rbac:permission"

end Key

end AccountCache
