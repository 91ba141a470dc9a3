import AccountCache.Proofs.Corruption.Recall
import AccountCache.Proofs.Moments.Reading

namespace AccountCache

open Cache (Stored Cached)
open Simulation (World)

namespace Simulation.World

/-- What reads draw on at the present moment. -/
def stock (w : World) : Accounts.Stock := ⟨w.loaded, fun d => w.cached? d.key⟩

/-- What is cached after a read: what was cached before, without the entry
that was read if it made no sense, or else what the load has left. The
predicate `post` says what that is. -/
inductive Left (α : Type) [Storable α] (w : World) (d : Datum) (post : World → Prop) (w' : World) : Prop
  | hit {e} {found : Option α} : w.cached? d.key = some e → e.says? = some found →
    (∀ key, ¬Key.IsLock key → w'.cached? key = w.cached? key) → Left α w d post w'
  | evicted {e} : w.cached? d.key = some e → (e.says? : Option (Option α)) = none → w.Lacks [d.key] w' →
    Left α w d post w'
  | loaded {v} : w.cached? d.key = none → post v → (∀ key, ¬Key.IsLock key → w'.cached? key = v.cached? key) →
    Left α w d post w'

variable {w v w' : World}

theorem Akin.stock_eq (akin : w.Akin w') (entries : ∀ key, ¬Key.IsLock key → w'.cached? key = w.cached? key) :
    w'.stock = w.stock := by
  have loads : w'.loaded = w.loaded := funext akin.loaded
  have entry : w'.stock.entry = w.stock.entry := funext fun d => entries d.key d.key_not_isLock
  rw [stock, loads]
  exact congrArg _ entry

theorem Akin.load_eq (akin : w.Akin w') : w'.stock.load = w.stock.load := by
  funext r
  exact congrArg (·.mapError Accounts.Error.database) (akin.loaded r)

theorem Akin.run?_load (akin : w.Akin w') {r : Database.Request} (read : r.isRead = true) :
    w'.run? (Accounts.Operation.database r).run = some (w.stock.load r, w') := by
  rw [run?_database w' read, akin.loaded]
  rfl

theorem Lacks.stock_eq {data : List Datum} (lacks : w.Lacks (data.map Datum.key) w') :
    w'.stock = w.stock.without data := by
  have loads : w'.loaded = w.loaded := funext lacks.loaded
  have entry : w'.stock.entry = (w.stock.without data).entry := by
    funext d
    by_cases member : d ∈ data
    · exact (lacks.gone d.key (List.mem_map_of_mem member)).trans (if_pos member).symm
    · have other : d.key ∉ data.map Datum.key := fun named =>
        member ((List.mem_map_of_injective fun _ _ => Datum.key_injective).1 named)
      exact (lacks.others d.key other d.key_not_isLock).trans (if_neg member).symm
  rw [stock, loads]
  exact congrArg _ entry

theorem Left.of_corrupt {α : Type} [Storable α] {d : Datum} {post : World → Prop} (left : w.Left α d post w')
    {outcome : Except Accounts.Error (Option α)} {key : String}
    (fails : w.stock.lookUp d outcome = .error (.corrupt key)) :
    key = d.key ∧ w.Lacks [d.key] w' ∨ outcome = .error (.corrupt key) ∧
      ∃ v, post v ∧ ∀ key, ¬Key.IsLock key → w'.cached? key = v.cached? key := by
  cases left with
  | @hit e found there said =>
    have entry : w.stock.entry d = some e := there
    simp only [Accounts.Stock.lookUp, entry, said] at fails
    cases fails
  | @evicted e there nonsense evicted =>
    have entry : w.stock.entry d = some e := there
    simp only [Accounts.Stock.lookUp, entry, nonsense] at fails
    cases fails
    exact .inl ⟨rfl, evicted⟩
  | loaded missing holds same =>
    have entry : w.stock.entry d = none := missing
    simp only [Accounts.Stock.lookUp, entry] at fails
    exact .inr ⟨fails, _, holds, same⟩

theorem Left.lacks {α : Type} [Storable α] {d : Datum} {post : World → Prop} (left : w.Left α d post w')
    {outcome : Except Accounts.Error (Option α)} (clear : Accounts.Clear outcome) (x : Datum)
    (fails : w.stock.lookUp d outcome = .error (.corrupt x.key)) : w.Lacks [x.key] w' := by
  obtain ⟨same, evicted⟩ | ⟨same, _⟩ := left.of_corrupt fails
  · exact same ▸ evicted
  · exact absurd same (clear x.key)

end Simulation.World

namespace Accounts

variable {a : Accounts} {w v w' : World} {d : Datum} {α : Type}

theorem decode_of_says? [Storable α] {e : Stored} {found : Option α} (said : e.says? = some found) (key : String) :
    a.decode key (.ofBytes e.value) = (pure found : Operation (Option α)) := by
  unfold Stored.says? at said
  cases cached : Cached.ofBytes e.value with
  | absent =>
    rw [cached] at said
    obtain rfl := Option.some.inj said
    rfl
  | value bytes =>
    rw [cached] at said
    obtain ⟨value, decoded, rfl⟩ := Option.map_eq_some_iff.1 said
    rw [decode]
    simp only [decoded]

theorem says?_of_encode? [Storable α] {value : α} {e : Stored} (faithful : Storable.Faithful value)
    (null : (Storable.ofJson? .null : Option α) = none) (encoded : Storable.encode? value = some e.value) :
    e.says? = some (some value) := by
  rw [Stored.says?, Cached.ofBytes, if_neg (faithful.ne_nilBytes null encoded)]
  simp only [faithful.decode?_of_encode? encoded, Option.map_some]

theorem map_self (outcome : Except Error α) : (outcome.map fun value => value) = outcome := by
  cases outcome with
  | ok | error => rfl

namespace Ready

theorem run?_decode_of_nonsense [Storable α] (ready : Ready a w) {e : Stored}
    (nonsense : (e.says? : Option (Option α)) = none) : ∃ w',
    w.run? (a.decode d.key (.ofBytes e.value) : Operation (Option α)).run = some (.error (.corrupt d.key), w') ∧
      w.Lacks [d.key] w' := by
  obtain ⟨w', dropped, lacks⟩ := ready.run?_invalidate [d]
  refine ⟨w', ?_, lacks⟩
  unfold Stored.says? at nonsense
  cases cached : Cached.ofBytes e.value with
  | absent =>
    rw [cached] at nonsense
    cases nonsense
  | value bytes =>
    rw [cached] at nonsense
    rw [decode]
    simp only [Option.map_eq_none_iff.1 nonsense]
    exact (World.run?_liftThen rfl).trans (World.run?_liftThen dropped)

/-- A read yields what is cached, or reports that it makes no sense and
drops it, or yields what it loads. In each case it leaves no lock behind. -/
theorem run?_read [Storable α] (ready : Ready a w) (free : w.guard? d.key = none) (load : Operation (Option α))
    (outcome : Except Error (Option α)) (post : World → Prop)
    (loads : ∀ lock v, w.Locked d.key lock v → ∃ v', v.run? load.run = some (outcome, v') ∧ v.Twin v' ∧ post v') :
    ∃ w', w.run? (a.read d.key load).run = some (w.stock.lookUp d outcome, w') ∧ w.Twin w' ∧ w.Left α d post w' := by
  cases there : w.cached? d.key with
  | some e =>
    obtain ⟨v, hit, twin, same⟩ := ready.run?_getOrLock_of_cached there
    have entry : w.stock.entry d = some e := there
    cases said : (e.says? : Option (Option α)) with
    | none =>
      have recalled : w.stock.lookUp d outcome = .error (.corrupt d.key) := by simp only [Stock.lookUp, entry, said]
      obtain ⟨w', dropped, evicted⟩ := (ready.of_akin twin.toAkin).run?_decode_of_nonsense (d := d) said
      have fails : w.run? (a.lookup d.key : Operation (Lookup α)).run = some (.error (.corrupt d.key), w') :=
        (World.run?_andThen (World.run?_cache hit)).trans (World.run?_of_error _ dropped)
      have gone : w.Lacks [d.key] w' := ⟨twin.trans evicted.toTwin, evicted.gone, fun other differ plain =>
        (evicted.others other differ plain).trans (same other)⟩
      exact ⟨w', recalled ▸ World.run?_of_error _ fails, gone.toTwin, .evicted there said gone⟩
    | some found =>
      have recalled : w.stock.lookUp d outcome = .ok found := by simp only [Stock.lookUp, entry, said]
      have hits : w.run? (a.lookup d.key : Operation (Lookup α)).run = some (.ok (.cached found), v) := by
        refine (World.run?_andThen (World.run?_cache hit)).trans ?_
        show v.run? (a.decode d.key (.ofBytes e.value) >>= fun value => pure (Lookup.cached value) :
          Operation (Lookup α)).run = _
        rw [decode_of_says? said]
        rfl
      exact ⟨v, recalled ▸ World.run?_andThen hits, twin, .hit there said fun key _ => same key⟩
  | none =>
    obtain ⟨lock, v, owns, locked⟩ := ready.run?_getOrLock_of_missing there free
    have recalled : w.stock.lookUp d outcome = outcome := by
      have entry : w.stock.entry d = none := there
      simp only [Stock.lookUp, entry]
    have misses : w.run? (a.lookup d.key : Operation (Lookup α)).run = some (.ok (.load (some lock)), v) :=
      World.run?_andThen (World.run?_cache owns)
    obtain ⟨v', ran, twin, holds⟩ := loads lock v locked
    have held : (v'.guard? d.key).map (·.value) = some (.ofText lock.token) := by rw [twin.guards, locked.held]
    obtain ⟨w', released, akin, given, guards, entries⟩ :=
      ((ready.of_akin locked.toAkin).of_akin twin.toAkin).run?_release locked.own held
    refine ⟨w', ?_, ⟨(locked.toAkin.trans twin.toAkin).trans akin, fun key => ?_⟩, .loaded there holds entries⟩
    · rw [recalled]
      exact (World.run?_andThen misses).trans ((World.run?_liftThen ran).trans (World.run?_liftThen released))
    · by_cases own : key = d.key
      · rw [own, given, free]
      · rw [guards key own, twin.guards, locked.guards key own]

theorem run?_fill [Storable α] (ready : Ready a w) (d : Datum) (value : α) : ∃ w',
    w.run? (a.fill d.key value) = some ((), w') ∧ w.Twin w' ∧
      (∀ key, key ≠ d.key → w'.cached? key = w.cached? key) ∧
      ∀ bytes, Storable.encode? value = some bytes → (w'.cached? d.key).map (·.value) = some bytes := by
  rw [fill]
  cases encoded : Storable.encode? value with
  | none => exact ⟨w, rfl, ready.reliable.twin, fun _ _ => rfl, fun _ same => by cases same⟩
  | some bytes =>
    have none : Duration.ofSeconds Duration.zero.seconds ≤ Cache.reach := Duration.ofSeconds_le_reach (by decide)
    obtain ⟨w', stored, twin, there, others⟩ := ready.run?_store (.new d.key bytes) rfl
      (ready.moderate.set ready.enabled none)
    exact ⟨w', World.run?_then stored, twin, others, fun _ same => Option.some.inj same ▸ there⟩

theorem run?_fillAbsent (ready : Ready a w) (d : Datum) : ∃ w',
    w.run? (a.fillAbsent d.key) = some ((), w') ∧ w.Twin w' ∧
      (∀ key, key ≠ d.key → w'.cached? key = w.cached? key) ∧
      (w'.cached? d.key).map (·.value) = some Cache.nilBytes := by
  obtain ⟨w', stored, twin, there, others⟩ := ready.run?_store ⟨d.key, Cache.nilBytes, a.cache.policy.nilTtl⟩
    rfl (ready.moderate.mark ready.enabled d.key)
  exact ⟨w', World.run?_then stored, twin, others, there⟩

theorem run?_fillFound [Storable α] (ready : Ready a w) (d : Datum) (found : Option α) : ∃ w',
    w.run? (a.fillFound d.key found).run = some (.ok found, w') ∧ w.Twin w' ∧
      (∀ key, key ≠ d.key → w'.cached? key = w.cached? key) ∧
      ∀ bytes, recorded? found = some bytes → (w'.cached? d.key).map (·.value) = some bytes := by
  cases found with
  | none =>
    obtain ⟨w', filled, twin, others, there⟩ := ready.run?_fillAbsent d
    exact ⟨w', World.run?_liftThen filled, twin, others, fun _ same => Option.some.inj same ▸ there⟩
  | some value =>
    obtain ⟨w', filled, twin, others, there⟩ := ready.run?_fill d value
    exact ⟨w', World.run?_liftThen filled, twin, others, there⟩

theorem run?_fillPermission (ready : Ready a w) (p : Permission) : ∃ w',
    w.run? (a.fillPermission p) = some ((), w') ∧ w.Twin w' := by
  have day : Duration.ofSeconds permissionTtl.seconds ≤ Cache.reach := Duration.ofSeconds_le_reach (by decide)
  obtain ⟨w', stored, twin, _⟩ := ready.run?_store (d := .permission)
    ⟨Key.permission, .ofText p.toJson.text, permissionTtl⟩ rfl (ready.moderate.set ready.enabled day)
  exact ⟨w', World.run?_then stored, twin⟩

theorem run?_cacheSession (ready : Ready a w) (s : Session) : ∃ w',
    w.run? (a.cacheSession s) = some ((), w') ∧ w.Twin w' := by
  cases encoded : Storable.encode? s with
  | none =>
    unfold cacheSession
    rw [encoded]
    exact ⟨w, rfl, ready.reliable.twin⟩
  | some bytes =>
    have within := ttl_le_reach_of_mem_sessionItems encoded ready.recent ready.recent
    obtain ⟨answer, w', answered, answers, twin⟩ :=
      ready.answer?_of_data (ready.moderate.setMany ready.enabled within) fun key named => by
        rw [Cache.Request.keys, List.map_map] at named
        obtain ⟨item, member, rfl⟩ := List.mem_map.1 named
        obtain ⟨d, _, own, _⟩ := mem_sessionItems member
        show ¬Key.IsLock item.key
        exact own ▸ d.key_not_isLock
    refine ⟨w', ?_, twin⟩
    have busy : ¬(a.cache.policy.disabled || (sessionItems s bytes w.wallClock w.wallClock).isEmpty) = true := by
      rw [ready.enabled]
      exact Bool.false_ne_true
    have stored : w.run? (a.cacheItems (sessionItems s bytes w.wallClock w.wallClock)) = some ((), w') := by
      rw [cacheItems, Cache.Manager.storeMany, if_neg busy]
      refine (World.run?_ask answered).trans ?_
      cases answer with
      | ok | error => rfl
    rw [cacheSession_eq a encoded]
    exact (World.run?_ask rfl).trans ((World.run?_ask rfl).trans stored)

/-- A row that is loaded is cached, and nothing else. -/
theorem run?_row [Storable α] (ready : Ready a w) (free : w.guard? d.key = none) {r : Database.Request}
    (read : r.isRead = true) (f : r.Result → Option α) : ∃ w',
    w.run? (a.read d.key (Operation.database r >>= fun found => a.fillFound d.key (f found))).run =
        some (w.stock.lookUp d ((w.stock.load r).map f), w') ∧ w.Twin w' ∧
      w.Left α d (fun v => (∀ key, key ≠ d.key → ¬Key.IsLock key → v.cached? key = w.cached? key) ∧
        ∀ found bytes, (w.stock.load r).map f = .ok found → recorded? found = some bytes →
          (v.cached? d.key).map (·.value) = some bytes) w' := by
  refine ready.run?_read free _ _ _ fun lock v locked => ?_
  have told := locked.toAkin.run?_load read
  cases loaded : w.stock.load r with
  | error e =>
    rw [loaded] at told
    exact ⟨v, World.run?_of_error _ told, (ready.of_akin locked.toAkin).reliable.twin,
      fun key _ plain => locked.entries key plain, fun _ _ same => by cases same⟩
  | ok value =>
    rw [loaded] at told
    obtain ⟨v', filled, twin, others, there⟩ := (ready.of_akin locked.toAkin).run?_fillFound d (f value)
    refine ⟨v', (World.run?_andThen told).trans filled, twin,
      fun key differ plain => (others key differ).trans (locked.entries key plain), ?_⟩
    rintro found bytes ⟨⟩ recorded
    exact there bytes recorded

theorem run?_findUser (ready : Ready a w) (id : Uuid) (free : w.guard? (Key.user id) = none) : ∃ w',
    w.run? (a.findUser id).run = some (w.stock.user id, w') ∧ w.Twin w' ∧
      ∀ x : Datum, w.stock.user id = .error (.corrupt x.key) → w.Lacks [x.key] w' := by
  obtain ⟨w', ran, twin, left⟩ := ready.run?_row (d := .user id) free (r := .findUser id) rfl fun found => found
  rw [map_self] at ran
  exact ⟨w', ran, twin, left.lacks (.load w.stock _)⟩

theorem run?_findPassword (ready : Ready a w) (id : Uuid) (free : w.guard? (Key.password id) = none) : ∃ w',
    w.run? (a.findPassword id).run = some ((Recall.password id).told w.stock, w') ∧ w.Twin w' ∧
      ∀ x : Datum, (Recall.password id).told w.stock = .error (.corrupt x.key) → w.Lacks [x.key] w' := by
  obtain ⟨w', ran, twin, left⟩ :=
    ready.run?_row (d := .password id) free (r := .findPassword id) rfl fun found => found
  rw [map_self] at ran
  exact ⟨w', ran, twin, left.lacks (.load w.stock _)⟩

theorem run?_loadPermission (ready : Ready a w) (free : w.guard? Key.permission = none) : ∃ w',
    w.run? a.loadPermission.run = some (Recall.permission.told w.stock, w') ∧ w.Twin w' ∧
      ∀ x : Datum, Recall.permission.told w.stock = .error (.corrupt x.key) → w.Lacks [x.key] w' := by
  have loads : ∀ lock v, w.Locked Datum.permission.key lock v → ∃ v', v.run? (do
        let grants ← Operation.database .findGrants
        a.fillPermission (.ofGrants grants)
        return some (Permission.ofGrants grants) : Operation (Option Permission)).run =
      some ((w.stock.load .findGrants).map fun grants => some (.ofGrants grants), v') ∧ v.Twin v' ∧ True := by
    intro lock v locked
    have there := ready.of_akin locked.toAkin
    have told := locked.toAkin.run?_load (r := .findGrants) rfl
    cases loaded : w.stock.load .findGrants with
    | error e =>
      rw [loaded] at told
      exact ⟨v, World.run?_of_error _ told, there.reliable.twin, trivial⟩
    | ok grants =>
      rw [loaded] at told
      obtain ⟨v', filled, twin⟩ := there.run?_fillPermission (.ofGrants grants)
      exact ⟨v', (World.run?_andThen told).trans (World.run?_liftThen filled), twin, trivial⟩
  obtain ⟨w', ran, twin, left⟩ := ready.run?_read (d := .permission) free _ _ (fun _ => True) loads
  have evicted := left.lacks ((Clear.load w.stock .findGrants).map fun grants => some (.ofGrants grants))
  rw [Recall.told]
  cases recalled : w.stock.lookUp .permission
      ((w.stock.load .findGrants).map fun grants => some (Permission.ofGrants grants)) with
  | error e =>
    rw [recalled] at ran evicted
    exact ⟨w', World.run?_of_error _ ran, twin, fun x same => evicted x (congrArg _ (Except.error.inj same))⟩
  | ok found =>
    rw [recalled] at ran
    exact ⟨w', World.run?_andThen ran, twin, fun _ fails => by cases fails⟩

theorem run?_completeSession (ready : Ready a w) (free : ∀ id, w.guard? (Key.user id) = none) (d : Datum)
    (found : Option Session) : ∃ w', w.run? (a.completeSession d.key found).run = some (w.stock.complete found, w') ∧
      w.Twin w' ∧ ∀ x : Datum, w.stock.complete found = .error (.corrupt x.key) → w.Lacks [x.key] w' := by
  cases found with
  | none =>
    obtain ⟨w', filled, twin, _⟩ := ready.run?_fillAbsent d
    exact ⟨w', World.run?_liftThen filled, twin, fun _ fails => by cases fails⟩
  | some row =>
    obtain ⟨v, ran, twin, evicted⟩ := ready.run?_findUser row.userId (free row.userId)
    rw [Stock.complete]
    cases owner : w.stock.user row.userId with
    | error e =>
      rw [owner] at ran evicted
      exact ⟨v, World.run?_of_error _ ran, twin, fun key same => evicted key (congrArg _ (Except.error.inj same))⟩
    | ok found =>
      rw [owner] at ran
      cases found with
      | none => exact ⟨v, World.run?_andThen ran, twin, fun _ fails => by cases fails⟩
      | some user =>
        obtain ⟨w', cached, same⟩ := (ready.of_akin twin.toAkin).run?_cacheSession { row with role := user.role }
        exact ⟨w', (World.run?_andThen ran).trans (World.run?_liftThen cached), twin.trans same,
          fun _ fails => by cases fails⟩

/-- A session is loaded and completed while its key is locked. -/
theorem run?_session (ready : Ready a w) (free : ∀ key, w.guard? key = none) (other : ∀ id, d ≠ .user id)
    {r : Database.Request} (read : r.isRead = true) (f : r.Result → Option Session) : ∃ w',
    w.run? (a.read d.key (Operation.database r >>= fun found => a.completeSession d.key (f found))).run =
        some (w.stock.lookUp d (w.stock.load r >>= fun found => w.stock.complete (f found)), w') ∧ w.Twin w' ∧
      ∀ x : Datum, w.stock.lookUp d (w.stock.load r >>= fun found => w.stock.complete (f found)) =
        .error (.corrupt x.key) → w.Lacks [x.key] w' := by
  have loads : ∀ lock v, w.Locked d.key lock v → ∃ v',
      v.run? (Operation.database r >>= fun found => a.completeSession d.key (f found)).run =
        some (w.stock.load r >>= fun found => w.stock.complete (f found), v') ∧ v.Twin v' ∧
      ∀ x : Datum, (w.stock.load r >>= fun found => w.stock.complete (f found)) = .error (.corrupt x.key) →
        (∀ key ∈ [x.key], v'.cached? key = none) ∧
          ∀ key ∉ [x.key], ¬Key.IsLock key → v'.cached? key = w.cached? key := by
    intro lock v locked
    have there := ready.of_akin locked.toAkin
    have told := locked.toAkin.run?_load read
    cases loaded : w.stock.load r with
    | error e =>
      rw [loaded] at told
      refine ⟨v, World.run?_of_error _ told, there.reliable.twin, fun x same => ?_⟩
      exact absurd (loaded.trans (congrArg _ (Except.error.inj same))) (Clear.load w.stock r x.key)
    | ok found =>
      rw [loaded] at told
      have users : ∀ id, v.guard? (Key.user id) = none := fun id =>
        (locked.guards _ fun same => other id (Datum.key_injective (a := .user id) same).symm).trans (free _)
      obtain ⟨v', completed, twin, evicted⟩ := there.run?_completeSession users d (f found)
      rw [locked.toAkin.stock_eq locked.entries] at completed evicted
      refine ⟨v', (World.run?_andThen told).trans completed, twin, fun x same => ?_⟩
      have gone := evicted x same
      exact ⟨gone.gone, fun key differ plain => (gone.others key differ plain).trans (locked.entries key plain)⟩
  obtain ⟨w', ran, twin, left⟩ := ready.run?_read (free d.key) _ _ _ loads
  refine ⟨w', ran, twin, fun x fails => ?_⟩
  obtain ⟨same, evicted⟩ | ⟨same, v, holds, entries⟩ := left.of_corrupt fails
  · exact same ▸ evicted
  · obtain ⟨gone, others⟩ := holds x same
    refine ⟨twin, fun key member => ?_, fun key differ plain => (entries key plain).trans (others key differ plain)⟩
    have plain : ¬Key.IsLock key := List.mem_singleton.1 member ▸ x.key_not_isLock
    exact (entries key plain).trans (gone key member)

end Ready

/-- Whether the entry that a read has failed for is gone, no other one is,
and the read goes on as if it had not been there. -/
structure Recall.Drops (r : Recall α) (w : World) (d : Datum) (w' : World) : Prop where
  gone : w'.cached? d.key = none
  others : ∀ key e, key ≠ d.key → ¬Key.IsLock key → w.cached? key = some e → w'.cached? key = some e
  told : ∀ data, r.told (w'.stock.without data) = r.told ((w.stock.without [d]).without data)
  spoilt : r.spoilt w'.stock = r.spoilt (w.stock.without [d])

theorem Recall.Drops.of_lacks (r : Recall α) (lacks : w.Lacks [d.key] w') : r.Drops w d w' := by
  have stock : w'.stock = w.stock.without [d] := lacks.stock_eq
  refine ⟨lacks.gone _ (List.mem_singleton_self _), fun key e differ plain there => ?_, fun data => ?_, ?_⟩
  · exact (lacks.others key (fun named => differ (List.mem_singleton.1 named)) plain).trans there
  · rw [stock]
  · rw [stock]

theorem Recall.spoilt_eq_nil {s : Stock} {r : Recall α} (clear : Clear (r.told s)) : r.spoilt s = [] := by
  cases r.outlook s with
  | clear none _ => exact none
  | blocked _ _ fails _ => exact absurd fails (clear _)

theorem Recall.told_userByEmail {s : Stock} {address : String} {id : Uuid} (leads : s.userId address = .ok (some id)) :
    (userByEmail address).told s = s.user id := by
  rw [told, leads]
  rfl

theorem Stock.eq_user_of_corrupt {s : Stock} {id : Uuid} (fails : s.user id = .error (.corrupt d.key)) :
    d = .user id := by
  cases spoilt : s.isSpoilt (.user id) with
  | true =>
    have first : s.user id = .error (.corrupt (Datum.user id).key) := lookUp_of_isSpoilt (fun _ => rfl) spoilt
    exact Datum.key_injective (Error.corrupt.inj (Except.error.inj (fails.symm.trans first)))
  | false => exact absurd fails (clear_lookUp (fun _ => rfl) spoilt (.load s _) d.key)

theorem Stock.userId_without {s : Stock} {address : String} {id : Uuid} (leads : s.userId address = .ok (some id))
    (loads : ((s.load (.findUserByEmail address)).map fun found => found.map (·.id)) = .ok (some id))
    (data : List Datum) : (s.without data).userId address = .ok (some id) := by
  rw [userId, lookUp]
  by_cases member : Datum.email address ∈ data
  · have entry : (s.without data).entry (.email address) = none := if_pos member
    rw [entry]
    exact loads
  · have entry : (s.without data).entry (.email address) = s.entry (.email address) := if_neg member
    rw [entry]
    exact leads

theorem Stock.user_without {s : Stock} {id : Uuid} (missing : s.entry (.user id) = none) (data : List Datum) :
    (s.without data).user id = s.load (.findUser id) := by
  have entry : (s.without data).entry (.user id) = none := by
    show (if _ then none else s.entry (.user id)) = none
    rw [missing, ite_self]
  rw [user, lookUp, entry]
  rfl

/-- The address of a user that was dropped may be cached meanwhile, which is
why `Drops` compares what reads come to, and not what is cached. -/
theorem Recall.Drops.of_loaded {address : String} {id : Uuid} (akin : w.Akin w')
    (gone : w'.cached? (Key.user id) = none) (missing : w.cached? (Key.email address) = none)
    (others : ∀ key, key ≠ Key.user id → key ≠ Key.email address → ¬Key.IsLock key →
      w'.cached? key = w.cached? key)
    (leads : w.stock.userId address = .ok (some id)) (leads' : w'.stock.userId address = .ok (some id)) :
    (userByEmail address).Drops w (.user id) w' := by
  have entry : w.stock.entry (.email address) = none := missing
  have loads : ((w.stock.load (.findUserByEmail address)).map fun found => found.map (·.id)) = .ok (some id) := by
    rw [Stock.userId, Stock.lookUp, entry] at leads
    exact leads
  have load := akin.load_eq
  have before (data : List Datum) :
      (userByEmail address).told ((w.stock.without [.user id]).without data) = w.stock.load (.findUser id) := by
    have leads := Stock.userId_without leads loads [.user id]
    exact (told_userByEmail (Stock.userId_without leads loads data)).trans (Stock.user_without (if_pos (by simp)) data)
  have after (data : List Datum) :
      (userByEmail address).told (w'.stock.without data) = w.stock.load (.findUser id) := by
    rw [← load] at loads ⊢
    exact (told_userByEmail (Stock.userId_without leads' loads data)).trans (Stock.user_without gone data)
  refine ⟨gone, fun key e differ plain there => ?_, fun data => (after data).trans (before data).symm, ?_⟩
  · have other : key ≠ Key.email address := by
      rintro rfl
      cases missing.symm.trans there
    exact (others key differ other plain).trans there
  · rw [spoilt_eq_nil, spoilt_eq_nil]
    · exact (before []).symm ▸ Clear.load w.stock _
    · exact (after []).symm ▸ Clear.load w.stock _

namespace Ready

/-- An address is looked up in the cache or else in the database, and
cached then. -/
theorem run?_findUserId (ready : Ready a w) (address : String) (free : w.guard? (Key.email address) = none) : ∃ w',
    w.run? (a.findUserId address).run = some (w.stock.userId address, w') ∧ w.Twin w' ∧
      (∀ x : Datum, w.stock.userId address = .error (.corrupt x.key) → w.Lacks [x.key] w') ∧
      ∀ id, w.stock.userId address = .ok (some id) →
        (∀ key, ¬Key.IsLock key → w'.cached? key = w.cached? key) ∨
          w.cached? (Key.email address) = none ∧ w'.stock.userId address = .ok (some id) ∧
            ∀ key, key ≠ Key.email address → ¬Key.IsLock key → w'.cached? key = w.cached? key := by
  have plain := Datum.key_not_isLock (.email address)
  obtain ⟨w', ran, twin, left⟩ := ready.run?_row (d := .email address) free (r := .findUserByEmail address) rfl
    fun found => found.map (·.id)
  refine ⟨w', ran, twin, left.lacks ((Clear.load w.stock _).map _), fun id leads => ?_⟩
  cases left with
  | hit _ _ same => exact .inl same
  | @evicted e there nonsense _ =>
    have entry : w.stock.entry (.email address) = some e := there
    simp only [Stock.userId, Stock.lookUp, entry, nonsense] at leads
    cases leads
  | @loaded v missing left same =>
    obtain ⟨others, cached⟩ := left
    have entry : w.stock.entry (.email address) = none := missing
    rw [Stock.userId, Stock.lookUp, entry] at leads
    obtain ⟨e, there, value⟩ := Option.map_eq_some_iff.1 (cached _ _ leads rfl)
    have entry' : w'.stock.entry (.email address) = some e := (same _ plain).trans there
    have said := says?_of_encode? id.faithful rfl (congrArg some value.symm)
    have leads' : w'.stock.userId address = .ok (some id) := by
      simp only [Stock.userId, Stock.lookUp, entry', said]
    exact .inr ⟨missing, leads', fun key differ plain => (same key plain).trans (others key differ plain)⟩

theorem run?_findUserByEmail (ready : Ready a w) (free : ∀ key, w.guard? key = none) (address : String) : ∃ w',
    w.run? (a.findUserByEmail address).run = some ((Recall.userByEmail address).told w.stock, w') ∧ w.Twin w' ∧
      ∀ x : Datum, (Recall.userByEmail address).told w.stock = .error (.corrupt x.key) →
        (Recall.userByEmail address).Drops w x w' := by
  obtain ⟨v, ran, twin, lost, kept⟩ := ready.run?_findUserId address (free _)
  cases leads : w.stock.userId address with
  | error e =>
    have ends : (Recall.userByEmail address).told w.stock = .error e := by
      rw [Recall.told, leads]
      rfl
    rw [leads] at ran
    refine ⟨v, ends ▸ World.run?_of_error _ ran, twin, fun x fails => .of_lacks _ (lost x (leads.trans ?_))⟩
    exact congrArg _ (Except.error.inj (ends.symm.trans fails))
  | ok found =>
    rw [leads] at ran
    cases found with
    | none =>
      have ends : (Recall.userByEmail address).told w.stock = .ok none := by
        rw [Recall.told, leads]
        rfl
      refine ⟨v, ends ▸ World.run?_andThen ran, twin, fun x fails => ?_⟩
      cases ends.symm.trans fails
    | some id =>
      obtain ⟨w', found, same, evicted⟩ := (ready.of_akin twin.toAkin).run?_findUser id ((twin.guards _).trans (free _))
      have ends : w.run? (a.findUserByEmail address).run = some (v.stock.user id, w') :=
        (World.run?_andThen ran).trans found
      have both := twin.trans same
      rw [Recall.told_userByEmail leads]
      obtain entries | ⟨missing, leads', entries⟩ := kept id leads
      · rw [twin.toAkin.stock_eq entries] at ends evicted
        refine ⟨w', ends, both, fun x fails => .of_lacks _ ⟨both, (evicted x fails).gone, fun key other plain => ?_⟩⟩
        exact ((evicted x fails).others key other plain).trans (entries key plain)
      · -- the address has been cached on the way, so that more than the dropped entry differs
        have other : Key.user id ≠ Key.email address := by
          intro same
          cases Datum.key_injective (a := .user id) (b := .email address) same
        have entry : v.stock.entry (.user id) = w.stock.entry (.user id) :=
          entries _ other (Datum.key_not_isLock (.user id))
        have user : v.stock.user id = w.stock.user id := by
          rw [Stock.user, Stock.user, Stock.lookUp, Stock.lookUp, entry, twin.toAkin.load_eq]
        rw [user] at ends evicted
        refine ⟨w', ends, both, fun x fails => ?_⟩
        obtain rfl := Stock.eq_user_of_corrupt fails
        obtain ⟨-, gone, others⟩ := evicted _ fails
        have others (key : String) (differ : key ≠ Key.user id) (plain : ¬Key.IsLock key) :
            w'.cached? key = v.cached? key := others key (fun named => differ (List.mem_singleton.1 named)) plain
        have leads'' : w'.stock.userId address = .ok (some id) := by
          have entry : w'.stock.entry (.email address) = v.stock.entry (.email address) :=
            others _ other.symm (Datum.key_not_isLock (.email address))
          rw [← leads', Stock.userId, Stock.userId, Stock.lookUp, Stock.lookUp, entry, same.toAkin.load_eq]
        exact .of_loaded both.toAkin (gone _ (List.mem_singleton_self _)) missing
          (fun key user email plain => (others key user plain).trans (entries key email plain)) leads leads''

end Ready

/-- Every read comes to what it is told, and drops the entry that it fails
for. The cases are those of `Recall`, one for each service that looks at the
cache first. -/
theorem Recall.run?_eq (ready : Ready a w) (free : ∀ key, w.guard? key = none) (r : Recall α) : ∃ w',
    w.run? (r.perform a).run = some (r.told w.stock, w') ∧ w.Twin w' ∧
      ∀ d : Datum, r.told w.stock = .error (.corrupt d.key) → r.Drops w d w' := by
  cases r with
  | userByEmail address => exact ready.run?_findUserByEmail free address
  | user id =>
    obtain ⟨w', ran, twin, evicted⟩ := ready.run?_findUser id (free _)
    exact ⟨w', ran, twin, fun d fails => .of_lacks _ (evicted d fails)⟩
  | password id =>
    obtain ⟨w', ran, twin, evicted⟩ := ready.run?_findPassword id (free _)
    exact ⟨w', ran, twin, fun d fails => .of_lacks _ (evicted d fails)⟩
  | permission =>
    obtain ⟨w', ran, twin, evicted⟩ := ready.run?_loadPermission (free _)
    exact ⟨w', ran, twin, fun d fails => .of_lacks _ (evicted d fails)⟩
  | sessionByToken type text =>
    obtain ⟨w', ran, twin, evicted⟩ := ready.run?_session (d := .token text) free (fun _ => nofun)
      (r := .findSessionByToken type text) rfl fun found => found
    exact ⟨w', ran, twin, fun d fails => .of_lacks _ (evicted d fails)⟩
  | session id =>
    obtain ⟨w', ran, twin, evicted⟩ := ready.run?_session (d := .session id) free (fun _ => nofun)
      (r := .findSession id) rfl fun found => found
    exact ⟨w', ran, twin, fun d fails => .of_lacks _ (evicted d fails)⟩

end Accounts

end AccountCache
