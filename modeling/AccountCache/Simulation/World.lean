import AccountCache.Cache.MemoryStore
import AccountCache.Database.Tables
import AccountCache.Effect
import AccountCache.Redis.Link

namespace AccountCache

namespace Simulation

/-- Where entries and locks are kept. -/
inductive Backend where
  /-- In memory: locks among the entries, or in a store of their own. -/
  | memory (values : Cache.MemoryStore) (locks : Option Cache.MemoryStore)
  | redis (link : Redis.Link)

namespace Backend

def shared (now : Instant) : Backend := .memory (.new now) none

def separate (now : Instant) : Backend := .memory (.new now) (some (.new now))

/-- Answers a request; no answer means that a deadline could not be
represented. -/
def serve (b : Backend) (now : Instant) (token : String) (r : Cache.Request) :
    Option (Except Cache.Error r.Result) × Backend :=
  match b with
  | .redis link =>
    let (answer, link) := link.serve token r
    (some answer, .redis link)
  | .memory values none =>
    let (answer, values) := values.serve now token r
    (answer, .memory values none)
  | .memory values (some locks) =>
    if r.isAboutLocks then
      let (answer, locks) := locks.serve now token r
      (answer, .memory values (some locks))
    else
      let (answer, values) := values.serve now token r
      (answer, .memory values (some locks))

def values? : Backend → Option Cache.MemoryStore
  | memory values _ => some values
  | redis _ => none

def withValues (b : Backend) (values : Cache.MemoryStore) : Backend :=
  match b with
  | memory _ locks => memory values locks
  | redis link => redis link

end Backend

structure World where
  clock : Instant := .start
  /-- The wall clock at the start. -/
  epoch : Timestamp := .epoch
  backend : Backend := .shared .start
  tables : Database.Tables := {}
  tokenCount : Nat := 0
  cacheFault : Cache.Request → Option Cache.Error := fun _ => none
  databaseFault : Database.Request → Option Database.Error := fun _ => none
  /-- How long the database takes to read. -/
  databaseDelay : Duration := .zero
  /-- How many reads the database was asked for. -/
  reads : Nat := 0

instance : Inhabited World := ⟨{}⟩

namespace World

/-- The token that the next lock gets. Different numbers give
different tokens. -/
def token (w : World) : String := (Uuid.version4 w.tokenCount).text

def nextToken (w : World) : World := { w with tokenCount := w.tokenCount + 1 }

def wallClock (w : World) : Timestamp := w.epoch.advance w.clock.nanos

def advanceTo (w : World) (t : Instant) : World := { w with clock := max w.clock t }

/-- Answers a request of a cache. -/
def serveCache (w : World) (r : Cache.Request) : Option (Except Cache.Error r.Result) × World :=
  match w.cacheFault r with
  | some e => (some (.error e), w)
  | none =>
    let (answer, backend) := w.backend.serve w.clock w.token r
    (answer, { w.nextToken with backend })

/-- Lets the store of the entries itself answer a request, whatever
it is about. -/
def serveValues (w : World) (r : Cache.Request) : Option (Except Cache.Error r.Result) × World :=
  match w.backend.values? with
  | none => (none, w)
  | some values =>
    let (answer, values) := values.serve w.clock w.token r
    (answer, { w.nextToken with backend := w.backend.withValues values })

/-- Answers a request to the database, which fails if a fault is given. -/
def serveDatabase (w : World) (fault : Option Database.Error) (r : Database.Request) :
    Except Database.Error r.Result × World :=
  match fault with
  | some e => (.error e, w)
  | none =>
    let (answer, tables) := w.tables.serve w.wallClock.utc r
    (answer, { w with tables })

/-- Answers a request at the present moment. A draw always yields the least
value, and the clock is left to whoever runs the operation. No answer means
that the clock could not represent a moment. -/
def answer (w : World) (fault : Option Database.Error) : (e : Effect) → Option e.Answer × World
  | .cache r => w.serveCache r
  | .database r => let (answer, w) := w.serveDatabase fault r; (some answer, w)
  | .clock last => (some ⟨max last w.clock, Instant.le_max_left ..⟩, w)
  | .wallClock => (some w.wallClock, w)
  | .draw low _ =>
    (some ⟨low, Nat.le_refl _, by rw [Duration.le_def, Duration.nanos_max]; omega⟩, w)
  | .sleep wake => (some ⟨max wake w.clock, Instant.le_max_left ..⟩, w)
  | .warn _ => (some (), w)
  | .overflow => (none, w)

end World

end Simulation

end AccountCache
