import AccountCache.Proofs.Store.Call

namespace AccountCache

namespace Cache

open MemoryStore

/-- Whether two stores have the same live entries under some keys, whatever
else they hold and whenever they sweep. -/
def Agree (keys : String → Prop) (now : Instant) (s t : MemoryStore) : Prop :=
  ∀ key, keys key → s.live? now key = t.live? now key

variable {keys : String → Prop} {now later : Instant} {s t : MemoryStore} {α : Type}

namespace Agree

theorem wait (agree : Agree keys now s t) (order : now ≤ later) : Agree keys later s t := by
  intro key mine
  rw [s.live?_of_le order, t.live?_of_le order, agree key mine]

theorem maybeSweep (agree : Agree keys now s t) : Agree keys now (s.maybeSweep now) (t.maybeSweep now) := by
  intro key mine
  rw [live?_maybeSweep, live?_maybeSweep, agree key mine]

theorem dropExpired (agree : Agree keys now s t) (at_ : String) :
    Agree keys now (s.dropExpired now at_) (t.dropExpired now at_) := by
  intro key mine
  rw [live?_dropExpired, live?_dropExpired, agree key mine]

theorem put (agree : Agree keys now s t) (at_ : String) (e : Stored) : Agree keys now (s.put at_ e) (t.put at_ e) := by
  intro key mine
  rw [live?_put, live?_put, agree key mine]

theorem drop (agree : Agree keys now s t) (at_ : String) : Agree keys now (s.drop at_) (t.drop at_) := by
  intro key mine
  rw [live?_drop, live?_drop, agree key mine]

theorem delete (agree : Agree keys now s t) (names : List String) :
    Agree keys now (s.delete names) (t.delete names) := by
  intro key mine
  rw [live?_delete, live?_delete, agree key mine]

end Agree

def Concur (keys : String → Prop) (now : Instant) (x y : α × MemoryStore) : Prop :=
  x.1 = y.1 ∧ Agree keys now x.2 y.2

namespace Agree

theorem insertAll (agree : Agree keys now s t) (entries : List Entry) :
    Concur keys now (s.insertAll now entries) (t.insertAll now entries) := by
  induction entries generalizing s t with
  | nil => exact ⟨rfl, agree⟩
  | cons e rest ih =>
    rw [MemoryStore.insertAll, MemoryStore.insertAll, insert?, insert?]
    cases now.add? (.ofSeconds e.seconds) with
    | none => exact ⟨rfl, agree⟩
    | some deadline => exact ih (agree.put e.key _)

theorem set (agree : Agree keys now s t) (e : Entry) : Concur keys now (s.set now e) (t.set now e) := by
  rw [MemoryStore.set, MemoryStore.set, insert?, insert?]
  cases now.add? (.ofSeconds e.seconds) with
  | none => exact ⟨rfl, agree.maybeSweep⟩
  | some deadline => exact ⟨rfl, agree.maybeSweep.put e.key _⟩

theorem increment (agree : Agree keys now s t) {key : String} (mine : keys key) :
    Concur keys now (s.increment now key) (t.increment now key) := by
  have swept := agree.maybeSweep
  simp only [MemoryStore.increment]
  rw [swept key mine]
  cases (t.maybeSweep now).live? now key with
  | none => exact ⟨rfl, swept.put key _⟩
  | some e =>
    dsimp only
    cases counter? e.value with
    | none => exact ⟨rfl, swept⟩
    | some n =>
      by_cases last : n = maxInt64
      · simp only [if_pos last]
        exact ⟨rfl, swept⟩
      · simp only [if_neg last]
        exact ⟨rfl, swept.put key _⟩

theorem expire (agree : Agree keys now s t) {key : String} (mine : keys key) (ttl : Duration) :
    Concur keys now (s.expire now key ttl) (t.expire now key ttl) := by
  rw [MemoryStore.expire, MemoryStore.expire, agree key mine]
  cases t.live? now key with
  | none => exact ⟨rfl, agree.drop key⟩
  | some e =>
    by_cases brief : ttl.seconds = 0
    · simp only [if_pos brief]
      exact ⟨rfl, agree.drop key⟩
    · simp only [if_neg brief]
      cases now.add? (.ofSeconds ttl.seconds) with
      | none => exact ⟨rfl, agree⟩
      | some deadline => exact ⟨rfl, agree.put key _⟩

theorem acquire (agree : Agree keys now s t) (lock : Lock) (mine : keys lock.key) :
    Concur keys now (s.acquire now lock) (t.acquire now lock) := by
  have swept := agree.maybeSweep
  simp only [MemoryStore.acquire]
  rw [swept lock.key mine]
  cases (t.maybeSweep now).live? now lock.key with
  | some e => exact ⟨rfl, swept⟩
  | none =>
    cases now.add? lock.expiry with
    | none => exact ⟨rfl, swept⟩
    | some deadline => exact ⟨rfl, swept.put lock.key _⟩

theorem release (agree : Agree keys now s t) (lock : Lock) (mine : keys lock.key) :
    Concur keys now (s.release now lock) (t.release now lock) := by
  rw [release_eq, release_eq, agree lock.key mine]
  split
  · exact ⟨rfl, agree.drop lock.key⟩
  · exact ⟨rfl, agree⟩

/-- Stores that agree about the keys that a request names answer it alike,
and agree still. Requests about these keys do not tell the stores apart. -/
theorem serve (agree : Agree keys now s t) (token : String) {r : Request} (mine : ∀ key ∈ r.keys, keys key) :
    Concur keys now (s.serve now token r) (t.serve now token r) := by
  cases r with
  | get key =>
    have own := agree key (mine key (List.mem_singleton_self key))
    refine ⟨?_, agree.dropExpired key⟩
    rw [MemoryStore.serve, MemoryStore.serve, MemoryStore.get, MemoryStore.get, own]
  | set e => exact ⟨congrArg (Option.map _) (agree.set e).1, (agree.set e).2⟩
  | setMany entries =>
    have wrote := agree.maybeSweep.insertAll entries
    exact ⟨congrArg (Option.map _) wrote.1, wrote.2⟩
  | delete names => exact ⟨rfl, agree.delete names⟩
  | increment key =>
    have counted := agree.increment (mine key (List.mem_singleton_self key))
    exact ⟨congrArg some counted.1, counted.2⟩
  | expire key ttl =>
    have prolonged := agree.expire (mine key (List.mem_singleton_self key)) ttl
    exact ⟨congrArg (Option.map _) prolonged.1, prolonged.2⟩
  | ttl key =>
    have own := agree key (mine key (List.mem_singleton_self key))
    refine ⟨?_, agree⟩
    rw [MemoryStore.serve, MemoryStore.serve, MemoryStore.ttl, MemoryStore.ttl, own]
  | acquire cacheKey expiry tries =>
    have got := agree.acquire ⟨cacheKey, token, expiry⟩ (mine _ (List.mem_singleton_self _))
    exact ⟨congrArg (Option.map _) got.1, got.2⟩
  | release lock =>
    have gone := agree.release lock (mine _ (List.mem_singleton_self _))
    exact ⟨congrArg (some ∘ Except.ok) gone.1, gone.2⟩
  | isHeld cacheKey =>
    have own := agree _ (mine _ (List.mem_singleton_self (Key.lock cacheKey)))
    refine ⟨?_, agree.dropExpired _⟩
    rw [MemoryStore.serve, MemoryStore.serve, MemoryStore.isHeld, MemoryStore.isHeld, own]

end Agree

end Cache

end AccountCache
