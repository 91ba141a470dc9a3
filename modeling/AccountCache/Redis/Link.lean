import AccountCache.Redis.Server
import AccountCache.Redis.Store

namespace AccountCache

namespace Redis

/-- The way to a server, which may be cut. The state of the server stays as
it is while no command arrives. -/
structure Link where
  server : Server := {}
  /-- The moment that the server's clock shows. -/
  clock : Instant := .start
  isUp : Bool := true
  /-- The commands that the server has received, last first. -/
  received : List Command := []

instance : Inhabited Link := ⟨{}⟩

namespace Link

/-- One exchange. Without a connection no command is sent. -/
def exchange (l : Link) (cs : List Command) : Except Cache.Error (List Reply) × Link :=
  if l.isUp then
    let (replies, server) := l.server.serveAll l.clock cs
    (.ok replies, { l with server, received := cs.reverse ++ l.received })
  else (.error .pool, l)

def carry {α : Type} (l : Link) : Program wire α → α × Link
  | .done a => (a, l)
  | .ask cs next =>
    let (replies, l) := l.exchange cs
    l.carry (next replies)

def run {α : Type} (l : Link) (e : Exchange α) : Except Cache.Error α × Link := l.carry e.run

/-- Answers a request of a cache. -/
def serve (l : Link) (token : String) (r : Cache.Request) : Except Cache.Error r.Result × Link :=
  l.run (Exchange.perform token r)

end Link

end Redis

end AccountCache
