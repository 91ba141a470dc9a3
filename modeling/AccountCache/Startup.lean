import AccountCache.Accounts.CacheAside
import AccountCache.Settings.Load

namespace AccountCache

/-- Where the entries and locks of a service are kept. -/
inductive CacheHome where
  | inProcess
  | onServers (entries locks : Redis.Pool)
deriving DecidableEq

/-- A service that is ready: settings that passed every check, and the cache
that they ask for. -/
structure Service where
  settings : Settings
  home : CacheHome
  cache : Cache.Manager

namespace Service

/-- Opens the pools that the settings ask for. The locks share the pool of
the entries, unless they are on a server of their own. -/
def openHome (s : Settings) : Except Cache.Error CacheHome := do
  if s.redis.enabled then
    let entries ← s.redis.cachePool.open
    let locks ← if s.redis.hasSeparateLocks then s.redis.lockPool.open else pure entries
    return .onServers entries locks
  else return .inProcess

/-- Makes a service ready. No server has to be reachable for that. -/
def ofSettings (s : Settings) : Except Cache.Error Service := do
  let home ← openHome s
  let cache ← Cache.Manager.ofPolicy s.cache.policy
  return ⟨s, home, cache⟩

/-- The operations on accounts that a service offers. -/
def accounts (s : Service) : Accounts := ⟨s.cache, s.settings.login.policy⟩

end Service

inductive StartupError where
  | settings (e : Settings.LoadError)
  | cache (e : Cache.Error)
deriving DecidableEq

def StartupError.message : StartupError → String
  | settings e => "invalid configuration: " ++ e.message
  | cache e => e.message

/-- A process in which services are started. -/
structure Host where
  files : Files
  environment : Environment
  hasLog : Bool := false

namespace Host

def environmentFile : String := ".env"

/-- Adds the environment file, if there is one, to the environment. -/
def readEnvironmentFile (h : Host) : Host :=
  match h.files.text? [environmentFile] with
  | some text => { h with environment := h.environment.addFile text }
  | none => h

/-- Starts a service: the environment file, the settings, the log, and the
cache. The first of them that fails ends it, and what was read before stays
in the environment. -/
def start (h : Host) (path : Option String) : Except StartupError Service × Host :=
  let h := h.readEnvironmentFile
  match Settings.load h.files h.environment path with
  | .error e => (.error (.settings e), h)
  | .ok s => ((Service.ofSettings s).mapError .cache, { h with hasLog := true })

end Host

end AccountCache
