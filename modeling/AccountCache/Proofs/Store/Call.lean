import AccountCache.Proofs.Store.Live

namespace AccountCache

namespace Cache

/-- What a client may ask of a store. Clones of a store share its entries,
so a call on a clone is a call on the store. -/
inductive Call where
  /-- A request; the token is the one that a new lock gets. -/
  | request (r : Request) (token : String)
  | size
  | isEmpty
  | cleanup

/-- What a call yields. How much a cleanup drops depends on what lingers
past its deadline, so the count is left out. -/
abbrev Call.Answer : Call → Type
  | request r _ => Except Error r.Result
  | size => Nat
  | isEmpty => Bool
  | cleanup => Unit

def Request.Bounded : Request → Prop
  | set e => e.seconds ≤ 9000000000000000
  | setMany entries => ∀ e ∈ entries, e.seconds ≤ 9000000000000000
  | expire _ lifetime => lifetime ≤ horizon
  | acquire _ expiry _ => expiry ≤ horizon
  | _ => True

instance : (r : Request) → Decidable r.Bounded
  | .set e => inferInstanceAs (Decidable (e.seconds ≤ 9000000000000000))
  | .setMany entries =>
    inferInstanceAs (Decidable (∀ e ∈ entries, e.seconds ≤ 9000000000000000))
  | .expire _ lifetime => inferInstanceAs (Decidable (lifetime ≤ horizon))
  | .acquire _ expiry _ => inferInstanceAs (Decidable (expiry ≤ horizon))
  | .get _ | .delete _ | .increment _ | .ttl _ | .release _ | .isHeld _ => isTrue trivial

def Call.Bounded : Call → Prop
  | request r _ => r.Bounded
  | _ => True

instance : (c : Call) → Decidable c.Bounded
  | .request r _ => inferInstanceAs (Decidable r.Bounded)
  | .size | .isEmpty | .cleanup => isTrue trivial

def Request.lifetimes : Request → List Duration
  | set e => [.ofSeconds e.seconds]
  | setMany entries => entries.map fun e => .ofSeconds e.seconds
  | expire _ lifetime => [.ofSeconds lifetime.seconds]
  | acquire _ expiry _ => [expiry]
  | _ => []

/-- The keys that a request names. Those of locks are the keys under which
they are kept. -/
def Request.keys : Request → List String
  | get key | increment key | expire key _ | ttl key => [key]
  | set e => [e.key]
  | setMany entries => entries.map (·.key)
  | delete keys => keys
  | acquire cacheKey _ _ | isHeld cacheKey => [Key.lock cacheKey]
  | release lock => [lock.key]

def Request.isIncrement : Request → Bool
  | increment _ => true
  | _ => false

namespace MemoryStore

variable (s : MemoryStore) (now : Instant)

/-- Answers a call; no answer means that a deadline could not be
represented. -/
def call : (c : Call) → Option c.Answer × MemoryStore
  | .request r token => s.serve now token r
  | .size => (some (s.size now), s)
  | .isEmpty => (some (s.size now == 0), s)
  | .cleanup => (some (), (s.cleanup now).2)

variable {s now}

def written (now : Instant) (e : Entry) : Stored := ⟨e.value, some (now.after (.ofSeconds e.seconds))⟩

theorem insert?_of_roomy {e : Entry} (roomy : now.Roomy) (bound : e.seconds ≤ 9000000000000000) :
    s.insert? now e = some (s.put e.key (written now e)) := by
  rw [insert?, Instant.add?_of_roomy roomy (ofSeconds_le_horizon bound), Option.map_some, written]

theorem eq_of_insert? {e : Entry} {s' : MemoryStore} (wrote : s.insert? now e = some s') :
    s' = s.put e.key (written now e) := by
  obtain ⟨deadline, ends, rfl⟩ := Option.map_eq_some_iff.1 wrote
  rw [written, Instant.eq_after_of_add? ends]

theorem isExpired_written {e : Entry} (positive : e.seconds ≠ 0) : (written now e).isExpired now = false := by
  rw [Stored.isExpired_eq_false_iff]
  rintro _ ⟨⟩
  simp only [Instant.lt_def, Instant.after, Duration.ofSeconds, Duration.nanos_ofNanos, Duration.maxNanos]
  omega

theorem set_of_roomy {e : Entry} (roomy : now.Roomy) (bound : e.seconds ≤ 9000000000000000) :
    s.set now e = (some (), (s.maybeSweep now).put e.key (written now e)) := by
  simp only [set, insert?_of_roomy roomy bound]

theorem insertAll_of_roomy {entries : List Entry} (roomy : now.Roomy)
    (bound : ∀ e ∈ entries, e.seconds ≤ 9000000000000000) :
    s.insertAll now entries = (some (), entries.foldl (fun s e => s.put e.key (written now e)) s) := by
  induction entries generalizing s with
  | nil => rfl
  | cons e rest ih =>
    have head := insert?_of_roomy (s := s) roomy (bound e (List.mem_cons_self ..))
    simp only [insertAll, head, List.foldl_cons]
    exact ih fun e member => bound e (List.mem_cons_of_mem _ member)

theorem setMany_of_roomy {entries : List Entry} (roomy : now.Roomy)
    (bound : ∀ e ∈ entries, e.seconds ≤ 9000000000000000) :
    s.setMany now entries =
      (some (), entries.foldl (fun s e => s.put e.key (written now e)) (s.maybeSweep now)) :=
  insertAll_of_roomy roomy bound

theorem acquire_of_roomy {lock : Lock} (roomy : now.Roomy) (bound : lock.expiry ≤ horizon) :
    s.acquire now lock =
      if s.live? now lock.key = none then
        (some (some lock),
          (s.maybeSweep now).put lock.key ⟨.ofText lock.token, some (now.after lock.expiry)⟩)
      else (some none, s.maybeSweep now) := by
  rw [acquire, s.live?_maybeSweep]
  cases found : s.live? now lock.key with
  | some e => rfl
  | none => simp only [Instant.add?_of_roomy roomy bound, if_true]

theorem exists_insertAll {entries : List Entry}
    (ends : ∀ e ∈ entries, ∃ deadline, now.add? (.ofSeconds e.seconds) = some deadline) :
    (s.insertAll now entries).1 = some () := by
  induction entries generalizing s with
  | nil => rfl
  | cons e rest ih =>
    obtain ⟨deadline, first⟩ := ends e (List.mem_cons_self ..)
    rw [insertAll, insert?, first]
    exact ih fun e member => ends e (List.mem_cons_of_mem _ member)

/-- A request has an answer if every lifetime that it gives ends at a moment
of the clock. -/
theorem exists_serve {r : Request} (ends : ∀ d ∈ r.lifetimes, ∃ deadline, now.add? d = some deadline)
    (token : String) : ∃ answer, (s.serve now token r).1 = some answer := by
  cases r with
  | get | delete | increment | ttl | release | isHeld => exact ⟨_, rfl⟩
  | set e =>
    obtain ⟨deadline, found⟩ := ends _ (List.mem_singleton_self _)
    rw [serve, set, insert?, found]
    exact ⟨_, rfl⟩
  | setMany entries =>
    have wrote : (s.setMany now entries).1 = some () :=
      exists_insertAll fun e member => ends _ (List.mem_map_of_mem member)
    simp only [serve, wrote]
    exact ⟨_, rfl⟩
  | expire key lifetime =>
    obtain ⟨deadline, found⟩ := ends _ (List.mem_singleton_self _)
    simp only [serve, expire, found]
    split
    · exact ⟨_, rfl⟩
    · split
      · exact ⟨_, rfl⟩
      · exact ⟨_, rfl⟩
  | acquire cacheKey expiry tries =>
    obtain ⟨deadline, found⟩ := ends _ (List.mem_singleton_self _)
    simp only [serve, acquire, found]
    split
    · exact ⟨_, rfl⟩
    · exact ⟨_, rfl⟩

theorem release_eq (lock : Lock) :
    s.release now lock =
      if (s.live? now lock.key).map (·.value) = some (.ofText lock.token) then (true, s.drop lock.key)
      else (false, s) := by
  rw [release]
  cases s.live? now lock.key with
  | none => rfl
  | some e => simp

theorem live?_insert? {key : String} {e : Entry} {s' : MemoryStore} (step : s.insert? now e = some s')
    (differ : e.key ≠ key) : s'.live? now key = s.live? now key := by
  obtain ⟨deadline, _, rfl⟩ := Option.map_eq_some_iff.1 step
  rw [live?_put, if_neg differ]

theorem live?_insertAll {key : String} {entries : List Entry} (differ : ∀ e ∈ entries, e.key ≠ key) :
    (s.insertAll now entries).2.live? now key = s.live? now key := by
  induction entries generalizing s with
  | nil => rfl
  | cons e rest ih =>
    rw [insertAll]
    split
    · next s' step =>
      rw [ih fun e member => differ e (List.mem_cons_of_mem _ member)]
      exact live?_insert? step (differ e (List.mem_cons_self ..))
    · rfl

/-- After a number of writes what is live was written, or was live and is
none of theirs. -/
theorem live?_of_insertAll {key : String} {entries : List Entry} {e : Stored}
    (wrote : (s.insertAll now entries).1 = some ())
    (live : (s.insertAll now entries).2.live? now key = some e) :
    (s.live? now key = some e ∧ ∀ x ∈ entries, x.key ≠ key) ∨ ∃ x ∈ entries, x.key = key ∧ e = written now x := by
  induction entries generalizing s with
  | nil => exact .inl ⟨live, fun _ => nofun⟩
  | cons first rest ih =>
    rw [insertAll] at wrote live
    cases step : s.insert? now first with
    | none =>
      rw [step] at wrote
      cases wrote
    | some s' =>
      rw [step] at wrote live
      rcases ih wrote live with ⟨before, away⟩ | ⟨x, member, same, eq⟩
      · rw [eq_of_insert? step, live?_put] at before
        by_cases same : first.key = key
        · rw [if_pos same] at before
          split at before
          · cases before
          · exact .inr ⟨first, List.mem_cons_self .., same, (Option.some.inj before).symm⟩
        · rw [if_neg same] at before
          exact .inl ⟨before, List.forall_mem_cons.2 ⟨same, away⟩⟩
      · exact .inr ⟨x, List.mem_cons_of_mem _ member, same, eq⟩

theorem live?_delete (keys : List String) (key : String) :
    (s.delete keys).live? now key = if key ∈ keys then none else s.live? now key := by
  rw [delete]
  induction keys generalizing s with
  | nil => simp
  | cons first rest ih =>
    rw [List.foldl_cons, ih, live?_drop]
    by_cases same : first = key
    · subst same
      simp
    · have other : key ≠ first := fun eq => same eq.symm
      simp [same, other]

/-- Only a counter can make a request fail. -/
theorem serve_error {token : String} {r : Request} {e : Error}
    (failed : (s.serve now token r).1 = some (.error e)) : r.isIncrement = true := by
  cases r with
  | increment key => rfl
  | get | delete | ttl | release | isHeld => cases failed
  | set | setMany | expire | acquire => simp [serve] at failed

/-- A request leaves the keys alone that it does not name. Whether it sweeps
does not show in what is live. -/
theorem live?_serve {key : String} (token : String) {r : Request} (foreign : key ∉ r.keys) :
    (s.serve now token r).2.live? now key = s.live? now key := by
  cases r with
  | get at_ => exact s.live?_dropExpired at_
  | set e =>
    have differ : e.key ≠ key := fun eq => foreign (by simp [Request.keys, eq])
    simp only [serve, set]
    split
    · next s' step => rw [live?_insert? step differ, live?_maybeSweep]
    · exact s.live?_maybeSweep
  | setMany entries =>
    have differ : ∀ e ∈ entries, e.key ≠ key := fun e member eq =>
      foreign (List.mem_map.2 ⟨e, member, eq⟩)
    simp only [serve, setMany, live?_insertAll differ, live?_maybeSweep]
  | delete keys =>
    have out : key ∉ keys := foreign
    simp only [serve, live?_delete, if_neg out]
  | increment at_ =>
    have differ : at_ ≠ key := fun eq => foreign (by simp [Request.keys, eq])
    simp only [serve, increment]
    split
    · rw [live?_put, if_neg differ, live?_maybeSweep]
    · split
      · exact s.live?_maybeSweep
      · split
        · exact s.live?_maybeSweep
        · rw [live?_put, if_neg differ, live?_maybeSweep]
  | expire at_ lifetime =>
    have differ : at_ ≠ key := fun eq => foreign (by simp [Request.keys, eq])
    simp only [serve, expire]
    split
    · rw [live?_drop, if_neg differ]
    · split
      · rw [live?_drop, if_neg differ]
      · split
        · rw [live?_put, if_neg differ]
        · rfl
  | ttl at_ => rfl
  | acquire cacheKey expiry tries =>
    have differ : Key.lock cacheKey ≠ key := fun eq => foreign (by simp [Request.keys, eq])
    simp only [serve, acquire]
    split
    · exact s.live?_maybeSweep
    · split
      · simp only [Lock.key, live?_put, if_neg differ, live?_maybeSweep]
      · exact s.live?_maybeSweep
  | release lock =>
    have differ : lock.key ≠ key := fun eq => foreign (by simp [Request.keys, eq])
    simp only [serve, release]
    split
    · rw [live?_drop, if_neg differ]
    · rfl
  | isHeld cacheKey => exact s.live?_dropExpired _

end MemoryStore

end Cache

end AccountCache
