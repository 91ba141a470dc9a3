import AccountCache.Proofs.Store.Call

namespace AccountCache

namespace Cache

/-- A map from keys to values with or without a deadline. There is
neither lazy deletion nor a sweep: an entry vanishes as soon as its
deadline has come. -/
structure IdealStore where
  entries : SortedMap String Stored

namespace IdealStore

def empty : IdealStore := ⟨.empty⟩

def find? (i : IdealStore) (key : String) : Option Stored := i.entries.find? key

def put (i : IdealStore) (key : String) (e : Stored) : IdealStore := ⟨i.entries.insert key e⟩

def erase (i : IdealStore) (key : String) : IdealStore := ⟨i.entries.erase key⟩

/-- What is left at a moment: nothing whose deadline has come. -/
def left (i : IdealStore) (now : Instant) : IdealStore := ⟨i.entries.filter fun _ e => !e.isExpired now⟩

def write (i : IdealStore) (now : Instant) (e : Entry) : IdealStore :=
  i.put e.key ⟨e.value, some (now.after (.ofSeconds e.seconds))⟩

def increment (i : IdealStore) (key : String) : Except Error Int × IdealStore :=
  match i.find? key with
  | none => (.ok 1, i.put key ⟨.ofText "1", none⟩)
  | some e =>
    match MemoryStore.counter? e.value with
    | none => (.error (.notAnInteger key), i)
    | some n =>
      if n = maxInt64 then (.error (.overflow key), i)
      else (.ok (n + 1), i.put key ⟨.ofText (toString (n + 1)), e.deadline⟩)

/-- Gives a key a new lifetime in whole seconds; one of less than a
second ends it. -/
def expire (i : IdealStore) (now : Instant) (key : String) (ttl : Duration) : Bool × IdealStore :=
  match i.find? key with
  | none => (false, i)
  | some e =>
    if ttl < .ofSeconds 1 then (true, i.erase key)
    else (true, i.put key ⟨e.value, some (now.after (.ofSeconds ttl.seconds))⟩)

/-- Whole milliseconds as seconds, a half rounded up; -1 without a deadline,
-2 without a key. -/
def ttl (i : IdealStore) (now : Instant) (key : String) : Int :=
  match i.find? key with
  | none => -2
  | some e =>
    match e.deadline with
    | none => -1
    | some deadline => (((deadline.nanos - now.nanos) / 1000000 + 500) / 1000 : Nat)

def acquire (i : IdealStore) (now : Instant) (lock : Lock) : Option Lock × IdealStore :=
  match i.find? lock.key with
  | some _ => (none, i)
  | none => (some lock, i.put lock.key ⟨.ofText lock.token, some (now.after lock.expiry)⟩)

def release (i : IdealStore) (lock : Lock) : Bool × IdealStore :=
  if (i.find? lock.key).map (·.value) = some (.ofText lock.token) then (true, i.erase lock.key)
  else (false, i)

def serve (i : IdealStore) (now : Instant) (token : String) :
    (r : Request) → Except Error r.Result × IdealStore
  | .get key => (.ok ((i.find? key).map (·.value)), i)
  | .set e => (.ok (), i.write now e)
  | .setMany entries => (.ok (), entries.foldl (·.write now) i)
  | .delete keys => (.ok (), keys.foldl erase i)
  | .increment key => i.increment key
  | .expire key ttl => let (live, i) := i.expire now key ttl; (.ok live, i)
  | .ttl key => (.ok (i.ttl now key), i)
  | .acquire cacheKey expiry _ =>
    let (lock, i) := i.acquire now ⟨cacheKey, token, expiry⟩
    (.ok lock, i)
  | .release lock => let (held, i) := i.release lock; (.ok held, i)
  | .isHeld cacheKey => (.ok (i.find? (Key.lock cacheKey)).isSome, i)

def call (i : IdealStore) (now : Instant) : (c : Call) → c.Answer × IdealStore
  | .request r token => (i.left now).serve now token r
  | .size => ((i.left now).entries.size, i.left now)
  | .isEmpty => ((i.left now).entries.isEmpty, i.left now)
  | .cleanup => ((), i.left now)

theorem find?_left (i : IdealStore) (now : Instant) (key : String) :
    (i.left now).find? key = (i.find? key).filter fun e => !e.isExpired now :=
  SortedMap.find?_filter ..

theorem find?_put (i : IdealStore) (at_ key : String) (e : Stored) :
    (i.put at_ e).find? key = if at_ = key then some e else i.find? key :=
  SortedMap.find?_insert ..

theorem find?_erase (i : IdealStore) (at_ key : String) :
    (i.erase at_).find? key = if at_ = key then none else i.find? key :=
  SortedMap.find?_erase ..

theorem find?_left_left (i : IdealStore) (now : Instant) (key : String) :
    ((i.left now).left now).find? key = (i.left now).find? key := by
  simp only [find?_left, Option.filter_filter, Bool.and_self]

end IdealStore

/-- Up to half a second below the greatest integer of 64 bits milliseconds
do not wrap around. -/
theorem MemoryStore.roundMillis_of_le {n : Nat} (bound : n ≤ 9223372036854775307) :
    roundMillis n = ((n + 500) / 1000 : Nat) := by
  have whole : wrapInt64 n = n := Int.bmod_eq_of_le (by omega) (by omega)
  have added : wrapInt64 (n + 500) = n + 500 := Int.bmod_eq_of_le (by omega) (by omega)
  rw [roundMillis, whole, added, Int.tdiv_eq_ediv_of_nonneg (by omega)]
  omega

/-- A store in memory and the ideal one have the same live entries at a
moment. No deadline lies beyond the horizon, so that the time left is
counted without overflow. -/
structure Refines (s : MemoryStore) (i : IdealStore) (now : Instant) : Prop where
  live : ∀ key, s.live? now key = (i.left now).find? key
  near : ∀ {key e deadline}, s.live? now key = some e → e.deadline = some deadline →
    deadline ≤ now.after horizon

namespace Refines

variable {s : MemoryStore} {i : IdealStore} {now later : Instant} {key : String}

theorem start (threshold : Nat) (now : Instant) :
    Refines (.withThreshold threshold now) .empty now where
  live _ := rfl
  near found _ := nomatch found

theorem wait (ref : Refines s i now) (order : now ≤ later) : Refines s i later where
  live key := by
    rw [s.live?_of_le order, ref.live, IdealStore.find?_left, IdealStore.find?_left]
    cases i.find? key with
    | none => rfl
    | some e =>
      cases expired : e.isExpired now with
      | false => simp [Option.filter_some, expired]
      | true => simp [Option.filter_some, expired, Stored.isExpired_of_le order expired]
  near found deadline := by
    rw [s.live?_of_le order, Option.filter_eq_some_iff] at found
    have bound := ref.near found.1 deadline
    simp only [Instant.le_def, Instant.after] at order bound ⊢
    omega

theorem left (ref : Refines s i now) : Refines s (i.left now) now where
  live key := by rw [IdealStore.find?_left_left, ref.live]
  near := ref.near

/-- Another store with the same live entries refines as well. -/
theorem congr {s' : MemoryStore} (ref : Refines s i now)
    (same : ∀ key, s'.live? now key = s.live? now key) : Refines s' i now where
  live key := by rw [same, ref.live]
  near found := ref.near (by rwa [← same])

theorem maybeSweep (ref : Refines s i now) : Refines (s.maybeSweep now) i now :=
  ref.congr fun _ => s.live?_maybeSweep

theorem dropExpired (ref : Refines s i now) (at_ : String) : Refines (s.dropExpired now at_) i now :=
  ref.congr fun _ => s.live?_dropExpired at_

theorem drop (ref : Refines s i now) (at_ : String) : Refines (s.drop at_) (i.erase at_) now where
  live key := by
    have old := ref.live key
    rw [IdealStore.find?_left] at old
    rw [s.live?_drop, IdealStore.find?_left, IdealStore.find?_erase]
    split
    · rfl
    · exact old
  near found deadline := by
    rw [s.live?_drop] at found
    split at found
    · cases found
    · exact ref.near found deadline

theorem put (ref : Refines s i now) (at_ : String) {e : Stored}
    (near : ∀ deadline, e.deadline = some deadline → deadline ≤ now.after horizon) :
    Refines (s.put at_ e) (i.put at_ e) now where
  live key := by
    have old := ref.live key
    rw [IdealStore.find?_left] at old
    rw [s.live?_put, IdealStore.find?_left, IdealStore.find?_put]
    split
    · cases expired : e.isExpired now <;> simp [Option.filter_some, expired]
    · exact old
  near found deadline := by
    rw [s.live?_put] at found
    split at found
    · split at found
      · cases found
      · cases found
        exact near _ deadline
    · exact ref.near found deadline

theorem write (ref : Refines s i now) {e : Entry} (bound : e.seconds ≤ 9000000000000000) :
    Refines (s.put e.key (MemoryStore.written now e)) (i.write now e) now := by
  refine ref.put e.key fun deadline eq => ?_
  have within := ofSeconds_le_horizon bound
  cases eq
  simp only [Instant.le_def, Instant.after, Duration.le_def] at within ⊢
  omega

theorem writeAll {entries : List Entry} (ref : Refines s i now)
    (bound : ∀ e ∈ entries, e.seconds ≤ 9000000000000000) :
    Refines (entries.foldl (fun s e => s.put e.key (MemoryStore.written now e)) s)
      (entries.foldl (·.write now) i) now := by
  induction entries generalizing s i with
  | nil => exact ref
  | cons e rest ih =>
    rw [List.foldl_cons, List.foldl_cons]
    exact ih (ref.write (bound e (List.mem_cons_self ..)))
      fun e member => bound e (List.mem_cons_of_mem _ member)

theorem dropAll {keys : List String} (ref : Refines s i now) :
    Refines (keys.foldl MemoryStore.drop s) (keys.foldl IdealStore.erase i) now := by
  induction keys generalizing s i with
  | nil => exact ref
  | cons key rest ih => exact ih (ref.drop key)

theorem entries_eq (ref : Refines s i now) :
    s.entries.filter (fun _ e => !e.isExpired now) = (i.left now).entries := by
  refine SortedMap.ext_find? fun key => ?_
  rw [SortedMap.find?_filter]
  exact ref.live key

theorem find?_eq (ref : Refines s i now) (key : String) : (i.left now).find? key = s.live? now key :=
  (ref.live key).symm

variable (ref : Refines s i now) (view : ∀ key, i.find? key = s.live? now key)

include ref view

theorem increment (key : String) :
    (s.increment now key).1 = (i.increment key).1 ∧
      Refines (s.increment now key).2 (i.increment key).2 now := by
  have swept := ref.maybeSweep
  have same := view key
  rw [← s.live?_maybeSweep] at same
  simp only [MemoryStore.increment, IdealStore.increment, same]
  cases found : (s.maybeSweep now).live? now key with
  | none => exact ⟨rfl, swept.put key (by rintro _ ⟨⟩)⟩
  | some e =>
    cases number : MemoryStore.counter? e.value with
    | none =>
      simp only [number]
      exact ⟨trivial, swept⟩
    | some n =>
      by_cases greatest : n = maxInt64
      · simp only [number, if_pos greatest]
        exact ⟨trivial, swept⟩
      · simp only [number, if_neg greatest]
        exact ⟨trivial, swept.put key fun _ eq => swept.near found eq⟩

theorem expire {ttl : Duration} (roomy : now.Roomy) (bound : ttl ≤ horizon) (key : String) :
    (s.expire now key ttl).1 = some (i.expire now key ttl).1 ∧
      Refines (s.expire now key ttl).2 (i.expire now key ttl).2 now := by
  simp only [MemoryStore.expire, IdealStore.expire, view key]
  cases found : s.live? now key with
  | none =>
    refine ⟨rfl, ref.congr fun other => ?_⟩
    rw [s.live?_drop]
    split
    · next same => rw [← same, found]
    · rfl
  | some e =>
    have second : ttl < .ofSeconds 1 ↔ ttl.seconds = 0 := by
      simp only [Duration.lt_def, Duration.ofSeconds, Duration.nanos_ofNanos, Duration.seconds,
        Duration.maxNanos]
      omega
    have within : Duration.ofSeconds ttl.seconds ≤ horizon := by
      simp only [Duration.le_def, Duration.ofSeconds, Duration.nanos_ofNanos, Duration.seconds]
        at bound ⊢
      omega
    by_cases short : ttl.seconds = 0
    · simp only [if_pos short, if_pos (second.2 short)]
      exact ⟨trivial, ref.drop key⟩
    · have long : ¬ttl < .ofSeconds 1 := fun less => short (second.1 less)
      simp only [if_neg short, if_neg long, Instant.add?_of_roomy roomy within]
      refine ⟨trivial, ref.put key fun deadline eq => ?_⟩
      cases eq
      simp only [Instant.le_def, Instant.after, Duration.le_def] at within ⊢
      omega

theorem ttl (key : String) : s.ttl now key = i.ttl now key := by
  simp only [MemoryStore.ttl, IdealStore.ttl, view key]
  cases found : s.live? now key with
  | none => rfl
  | some e =>
    cases deadline : e.deadline with
    | none => simp only [deadline]
    | some moment =>
      have bound := ref.near found deadline
      simp only [horizon, Instant.le_def, Instant.after, Duration.ofSeconds, Duration.nanos_ofNanos,
        Duration.maxNanos] at bound
      have millis : (moment.since now).millis = (moment.nanos - now.nanos) / 1000000 := by
        simp only [Instant.since, Duration.millis, Duration.nanos_ofNanos, Duration.maxNanos]
        omega
      simp only [deadline, millis]
      exact MemoryStore.roundMillis_of_le (by omega)

theorem acquire (lock : Lock) (roomy : now.Roomy) (bound : lock.expiry ≤ horizon) :
    (s.acquire now lock).1 = some (i.acquire now lock).1 ∧
      Refines (s.acquire now lock).2 (i.acquire now lock).2 now := by
  have swept := ref.maybeSweep
  rw [MemoryStore.acquire_of_roomy roomy bound, IdealStore.acquire, view lock.key]
  cases found : s.live? now lock.key with
  | some e => exact ⟨rfl, swept⟩
  | none =>
    refine ⟨rfl, swept.put lock.key fun deadline eq => ?_⟩
    cases eq
    simp only [Instant.le_def, Instant.after, Duration.le_def] at bound ⊢
    omega

theorem release (lock : Lock) :
    (s.release now lock).1 = (i.release lock).1 ∧
      Refines (s.release now lock).2 (i.release lock).2 now := by
  rw [MemoryStore.release_eq, IdealStore.release, view lock.key]
  split
  · exact ⟨rfl, ref.drop lock.key⟩
  · exact ⟨rfl, ref⟩

end Refines

/-- One call: the answers agree, and the stores go on alike. There is a case
for each kind of request. -/
theorem Refines.call {s : MemoryStore} {i : IdealStore} {now : Instant} {c : Call}
    (ref : Refines s i now) (roomy : now.Roomy) (bound : c.Bounded) :
    (s.call now c).1 = some (i.call now c).1 ∧ Refines (s.call now c).2 (i.call now c).2 now := by
  have left := ref.left
  have view := ref.find?_eq
  cases c with
  | request r token =>
    cases r with
    | get key =>
      refine ⟨?_, left.dropExpired key⟩
      simp only [MemoryStore.call, MemoryStore.serve, MemoryStore.get, IdealStore.call,
        IdealStore.serve, view]
    | set e =>
      simp only [MemoryStore.call, MemoryStore.serve, MemoryStore.set_of_roomy roomy bound,
        IdealStore.call, IdealStore.serve]
      exact ⟨rfl, left.maybeSweep.write bound⟩
    | setMany entries =>
      simp only [MemoryStore.call, MemoryStore.serve, MemoryStore.setMany_of_roomy roomy bound,
        IdealStore.call, IdealStore.serve]
      exact ⟨rfl, left.maybeSweep.writeAll bound⟩
    | delete keys => exact ⟨rfl, left.dropAll⟩
    | increment key =>
      have step := left.increment view key
      exact ⟨congrArg some step.1, step.2⟩
    | expire key ttl =>
      have step := left.expire view roomy bound key
      refine ⟨?_, step.2⟩
      simp only [MemoryStore.call, MemoryStore.serve, step.1, IdealStore.call, IdealStore.serve,
        Option.map_some]
    | ttl key =>
      refine ⟨?_, left⟩
      simp only [MemoryStore.call, MemoryStore.serve, left.ttl view key, IdealStore.call,
        IdealStore.serve]
    | acquire cacheKey expiry tries =>
      have step := left.acquire view ⟨cacheKey, token, expiry⟩ roomy bound
      refine ⟨?_, step.2⟩
      simp only [MemoryStore.call, MemoryStore.serve, step.1, IdealStore.call, IdealStore.serve,
        Option.map_some]
    | release lock =>
      have step := left.release view lock
      refine ⟨?_, step.2⟩
      simp only [MemoryStore.call, MemoryStore.serve, step.1, IdealStore.call, IdealStore.serve]
    | isHeld cacheKey =>
      refine ⟨?_, left.dropExpired _⟩
      simp only [MemoryStore.call, MemoryStore.serve, MemoryStore.isHeld, IdealStore.call,
        IdealStore.serve, view]
  | size =>
    refine ⟨?_, left⟩
    simp only [MemoryStore.call, MemoryStore.size, IdealStore.call, ref.entries_eq]
  | isEmpty =>
    refine ⟨?_, left⟩
    simp only [MemoryStore.call, MemoryStore.size, IdealStore.call, ref.entries_eq]
    cases entries : (i.left now).entries.entries with
    | nil => simp [SortedMap.size, SortedMap.isEmpty, entries]
    | cons => simp [SortedMap.size, SortedMap.isEmpty, entries]
  | cleanup => exact ⟨rfl, left.congr fun _ => s.live?_sweep⟩

/-- The answers to calls that come one after the other, each at its moment.
A call without an answer is one that breaks off. -/
def MemoryStore.replies (s : MemoryStore) : List (Instant × Call) → List (Σ c : Call, Option c.Answer)
  | [] => []
  | (now, c) :: rest => ⟨c, (s.call now c).1⟩ :: (s.call now c).2.replies rest

/-- The answers of the ideal store, which always has one. -/
def IdealStore.replies (i : IdealStore) : List (Instant × Call) → List (Σ c : Call, Option c.Answer)
  | [] => []
  | (now, c) :: rest => ⟨c, some (i.call now c).1⟩ :: (i.call now c).2.replies rest

/-- Whether the moments of calls come in order from a start on and no
deadline is out of reach. -/
def Admissible (start : Instant) : List (Instant × Call) → Prop
  | [] => True
  | (now, c) :: rest => start ≤ now ∧ now.Roomy ∧ c.Bounded ∧ Admissible now rest

instance Admissible.decidable : (start : Instant) → (steps : List (Instant × Call)) →
    Decidable (Admissible start steps)
  | _, [] => isTrue trivial
  | start, (now, c) :: rest =>
    have := decidable now rest
    inferInstanceAs (Decidable (start ≤ now ∧ now.Roomy ∧ c.Bounded ∧ Admissible now rest))

theorem Refines.replies {s : MemoryStore} {i : IdealStore} {start : Instant}
    {steps : List (Instant × Call)} (ref : Refines s i start) (admissible : Admissible start steps) :
    s.replies steps = i.replies steps := by
  induction steps generalizing s i start with
  | nil => rfl
  | cons step rest ih =>
    obtain ⟨now, c⟩ := step
    obtain ⟨order, roomy, bound, later⟩ := admissible
    have next := (ref.wait order).call roomy bound
    simp only [MemoryStore.replies, IdealStore.replies, next.1]
    exact congrArg (_ :: ·) (ih next.2 later)

/-- Whatever clients ask of a store in memory, and however much time passes
in between, they get the answers of a store in which entries vanish at
their deadline. -/
theorem replies_eq_ideal (threshold : Nat) (start : Instant) {steps : List (Instant × Call)}
    (admissible : Admissible start steps) :
    (MemoryStore.withThreshold threshold start).replies steps = IdealStore.empty.replies steps :=
  (Refines.start threshold start).replies admissible

/-- An entry is read in its last half second and at its deadline, counted
up, and swept by a later write. -/
theorem replies_eq_ideal_at_deadline :
    (MemoryStore.withThreshold 1 .start).replies
        [(⟨0⟩, .request (.set ⟨"k", .ofText "7", 1⟩) ""), (⟨600000000⟩, .request (.ttl "k") ""),
          (⟨999999999⟩, .request (.increment "k") ""), (⟨1000000000⟩, .request (.get "k") ""),
          (⟨2000000000⟩, .request (.acquire "k" (.ofSeconds 60) 1) "a"), (⟨2000000000⟩, .size)] =
      IdealStore.empty.replies
        [(⟨0⟩, .request (.set ⟨"k", .ofText "7", 1⟩) ""), (⟨600000000⟩, .request (.ttl "k") ""),
          (⟨999999999⟩, .request (.increment "k") ""), (⟨1000000000⟩, .request (.get "k") ""),
          (⟨2000000000⟩, .request (.acquire "k" (.ofSeconds 60) 1) "a"), (⟨2000000000⟩, .size)] :=
  replies_eq_ideal 1 .start (by decide)

end Cache

end AccountCache
