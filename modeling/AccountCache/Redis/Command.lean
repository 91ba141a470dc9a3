import AccountCache.Text.Utf8

namespace AccountCache

namespace Redis

inductive Command where
  | ping
  | multi
  /-- Runs the queued commands, all at once. -/
  | exec
  | isPresent (key : String)
  | get (key : String)
  /-- Sets a value that lives for some seconds. -/
  | setEx (key : String) (value : Bytes) (seconds : Nat)
  | del (keys : List String)
  | incrBy (key : String) (n : Int)
  | expire (key : String) (seconds : Int)
  | ttl (key : String)
  /-- Sets a value that lives for some milliseconds, unless the
  key is there. -/
  | setNew (key token : String) (millis : Nat)
  /-- Runs the script that deletes a key if it holds a token. -/
  | runRelease (key token : String)
  | loadRelease
deriving DecidableEq

/-- A word of a command as it is sent. What the release script and its hash
are does not matter to anyone but the server. -/
inductive Word where
  | bytes (b : Bytes)
  | scriptHash
deriving DecidableEq

namespace Command

def name : Command → String
  | ping => "PING"
  | multi => "MULTI"
  | exec => "EXEC"
  | isPresent _ => "EXISTS"
  | get _ => "GET"
  | setEx .. => "SETEX"
  | del _ => "DEL"
  | incrBy .. => "INCRBY"
  | expire .. => "EXPIRE"
  | ttl _ => "TTL"
  | setNew .. => "SET"
  | runRelease .. => "EVALSHA"
  | loadRelease => "SCRIPT"

def arguments : Command → List Word
  | ping | multi | exec => []
  | isPresent key | get key | ttl key => [text key]
  | setEx key value seconds => [text key, text (toString seconds), .bytes value]
  | del keys => keys.map text
  | incrBy key n => [text key, text (toString n)]
  | expire key seconds => [text key, text (toString seconds)]
  | setNew key token millis => [text key, text token, text "NX", text "PX", text (toString millis)]
  | runRelease key token => [.scriptHash, text "1", text key, text token]
  | loadRelease => [text "LOAD"]
where text (s : String) : Word := .bytes (.ofText s)

/-- The words of a command, its name first; a script that is loaded
is left out. -/
def words (c : Command) : List Word := .bytes (.ofText c.name) :: c.arguments

end Command

end Redis

end AccountCache
