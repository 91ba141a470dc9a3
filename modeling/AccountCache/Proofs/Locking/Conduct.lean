import AccountCache.Proofs.Faults.Services
import AccountCache.Proofs.Sequential.Users

namespace AccountCache

open Program (AsksOnly)

/-- Whether an effect changes no lock. -/
def Effect.SparesLocks : Effect → Prop
  | cache (.isHeld _) => True
  | cache r => r.isAboutLocks = false ∧ ∀ key ∈ r.keys, ¬Key.IsLock key
  | _ => True

/-- The rule for one who holds some locks, each with the key that it was
asked for, the latest first. It gives back the latest, and does not ask for
the lock of a key again. -/
inductive Holding : List (String × Cache.Lock) → (e : Effect) → e.Answer → List (String × Cache.Lock) → Prop
  | grant {held key expiry tries lock} : (∀ x ∈ held, x.1 ≠ key) → expiry.nanos ≠ 0 →
    Holding held (.cache (.acquire key expiry tries)) (.ok (some lock)) ((key, lock) :: held)
  | refuse {held key expiry tries} : (∀ x ∈ held, x.1 ≠ key) → expiry.nanos ≠ 0 →
    Holding held (.cache (.acquire key expiry tries)) (.ok none) held
  | fail {held key expiry tries e} : Holding held (.cache (.acquire key expiry tries)) (.error e) held
  | release {held key lock answer} : Holding ((key, lock) :: held) (.cache (.release lock)) answer held
  | aside {held e answer} : e.SparesLocks → Holding held e answer held

theorem Holding.patient : Discipline.Patient Holding := by
  intro held e quiet answer
  cases e with
  | cache | database => cases quiet
  | _ => exact .aside trivial

variable {α β : Type} {held : List (String × Cache.Lock)} {key : String}

def withLock (held : List (String × Cache.Lock)) (key : String) : Option Cache.Lock → List (String × Cache.Lock)
  | some lock => (key, lock) :: held
  | none => held

namespace Cache.Lookup

def lock? : Lookup → Option Lock
  | owner lock => some lock
  | _ => none

end Cache.Lookup

namespace Cache.Manager

variable (m : Manager)

section

variable (plain : ¬Key.IsLock key)

include plain

theorem holds_checkCache : (checkCache key).Conforms Holding (fun held' _ => held' = held) held := by
  have spared : Effect.SparesLocks (.cache (.get key)) := ⟨rfl, List.forall_mem_singleton.2 plain⟩
  exact conforms_checkCache Holding.patient (fun _ => ⟨held, .aside spared, rfl⟩) fun _ => ⟨held, .aside spared, rfl⟩

variable (free : ∀ x ∈ held, x.1 ≠ key)

include free

omit plain in
theorem holds_tryLock : (m.tryLock key).Conforms Holding
    (fun held' outcome => held' = withLock held key (match outcome with | .acquired lock => some lock | _ => none))
    held := by
  have lasting := (Policy.problem?_eq_none m.usable).2.2
  exact m.conforms_tryLock Holding.patient (fun lock => ⟨_, .grant free lasting, rfl⟩)
    ⟨_, .refuse free lasting, rfl⟩ fun _ => ⟨_, .fail, rfl⟩

theorem holds_poll : (m.poll key).Conforms Holding
    (fun held' found => held' = withLock held key (found.bind Lookup.lock?)) held := by
  have probed : (isLocked key).Conforms Holding (fun held' _ => held' = held) held :=
    conforms_isLocked Holding.patient (fun _ => ⟨held, .aside trivial, rfl⟩) fun _ => ⟨held, .aside trivial, rfl⟩
  refine probed.bind ?_
  rintro _ locked rfl
  cases locked with
  | true => exact rfl
  | false =>
    refine (holds_checkCache plain).bind ?_
    rintro _ found rfl
    cases found with
    | some value => exact rfl
    | none =>
      refine (m.holds_tryLock free).bind ?_
      rintro _ outcome rfl
      cases outcome with
      | acquired | unavailable | contended => exact rfl

/-- Who asks for a value or the right to compute it holds a lock more
afterwards, if any was got. -/
theorem holds_getOrLock : (m.getOrLock key).Conforms Holding
    (fun held' outcome => held' = withLock held key (outcome.toOption.bind Lookup.lock?)) held := by
  rw [getOrLock]
  split
  · exact rfl
  · refine (holds_checkCache plain).bind ?_
    rintro _ found rfl
    cases found with
    | some value => exact rfl
    | none =>
      refine (m.holds_tryLock free).bind ?_
      rintro _ outcome rfl
      cases outcome with
      | acquired | unavailable => exact rfl
      | contended =>
        refine m.conforms_wait Holding.patient (· = _) ?_ (fun _ same _ => same) rfl
        rintro _ rfl
        refine (m.holds_poll plain free).mono fun _ found same => ?_
        cases found with
        | none | some => exact same

end

end Cache.Manager

namespace Accounts

variable {a : Accounts}

theorem spares_warn (message : String) : AsksOnly Effect.SparesLocks (Action.warn message) :=
  .ask trivial fun _ => .done _

theorem spares_invalidate {keys : List String} (plain : ∀ key ∈ keys, ¬Key.IsLock key) :
    AsksOnly Effect.SparesLocks (a.invalidate keys) := by
  rw [invalidate, Cache.Manager.delete]
  split
  · exact .done _
  · refine .ask ⟨rfl, plain⟩ fun answer => ?_
    cases answer with
    | ok => exact .done _
    | error e => exact spares_warn _

theorem spares_store {item : Cache.Item} {f : Except Cache.Error Unit → Action α} (plain : ¬Key.IsLock item.key)
    (rest : ∀ outcome, AsksOnly Effect.SparesLocks (f outcome)) :
    AsksOnly Effect.SparesLocks ((a.cache.store item).bind f) := by
  have spared : Effect.SparesLocks (.cache (.set (a.cache.entry item))) := ⟨rfl, List.forall_mem_singleton.2 plain⟩
  exact (asks_store spared).bind rest

theorem spares_fillAbsent (plain : ¬Key.IsLock key) : AsksOnly Effect.SparesLocks (a.fillAbsent key) := by
  refine spares_store plain fun outcome => ?_
  cases outcome with
  | ok => exact .done _
  | error e => exact spares_warn _

theorem spares_fill [Storable α] (plain : ¬Key.IsLock key) (value : α) :
    AsksOnly Effect.SparesLocks (a.fill key value) := by
  rw [fill]
  cases Storable.encode? value with
  | none => exact spares_warn _
  | some bytes =>
    refine spares_store plain fun outcome => ?_
    cases outcome with
    | ok => exact .done _
    | error e => exact spares_warn _

theorem spares_fillFound [Storable α] (plain : ¬Key.IsLock key) (found : Option α) :
    AsksOnly Effect.SparesLocks (a.fillFound key found).run := by
  cases found with
  | some value => exact asks_andThen (asks_lift (spares_fill plain value)) fun _ => .done _
  | none => exact asks_andThen (asks_lift (spares_fillAbsent plain)) fun _ => .done _

theorem spares_fillPermission (p : Permission) : AsksOnly Effect.SparesLocks (a.fillPermission p) := by
  refine spares_store Datum.permission.key_not_isLock fun outcome => ?_
  cases outcome with
  | ok => exact .done _
  | error e => exact spares_warn _

theorem spares_cacheSession (row : Session) : AsksOnly Effect.SparesLocks (a.cacheSession row) := by
  cases encoded : Storable.encode? row with
  | none =>
    unfold cacheSession
    rw [encoded]
    exact spares_warn _
  | some bytes =>
    rw [cacheSession_eq a encoded]
    refine .ask trivial fun now => .ask trivial fun later => ?_
    simp only [Program.bind_done, cacheItems, Cache.Manager.storeMany]
    split
    · exact .done _
    · have plain : ∀ key ∈ (Cache.Request.setMany ((sessionItems row bytes now later).map a.cache.entry)).keys,
          ¬Key.IsLock key := by
        intro key member
        simp only [Cache.Request.keys, sessionItems, List.map_cons, List.map_nil, List.mem_cons, List.not_mem_nil,
          or_false] at member
        rcases member with rfl | rfl | rfl
        · exact (Datum.token row.accessToken).key_not_isLock
        · exact (Datum.session row.id).key_not_isLock
        · exact (Datum.token row.refreshToken).key_not_isLock
      refine .ask ⟨rfl, plain⟩ fun answer => ?_
      cases answer with
      | ok => exact .done _
      | error e => exact spares_warn _

theorem spares_get (plain : ¬Key.IsLock key) : AsksOnly Effect.SparesLocks (a.cache.get key) := by
  rw [Cache.Manager.get]
  split
  · exact .done _
  · refine .ask ⟨rfl, List.forall_mem_singleton.2 plain⟩ fun answer => ?_
    cases answer with
    | ok => exact .done _
    | error e => exact (spares_warn _).bind fun _ => .done _

theorem spares_counter {address : String} {r : Cache.Request} (own : r.keys = [Key.loginAttempts address]) :
    Effect.SparesLocks (.cache r) := by
  have plain : ∀ key ∈ r.keys, ¬Key.IsLock key := by
    rw [own]
    exact List.forall_mem_singleton.2 (Key.loginAttempts_not_isLock address)
  cases r with
  | isHeld => trivial
  | acquire cacheKey | release lock => exact absurd (Key.isLock_lock _) (plain _ (List.mem_singleton_self _))
  | _ => exact ⟨rfl, plain⟩

theorem spares_isLoginLocked (address : String) : AsksOnly Effect.SparesLocks (a.isLoginLocked address).run := by
  have asked : AsksOnly Effect.SparesLocks (a.cache.lifetime (Key.loginAttempts address)) := by
    rw [Cache.Manager.lifetime]
    split
    · exact .done _
    · refine .ask (spares_counter rfl) fun answer => ?_
      cases answer with
      | ok | error => exact .done _
  refine asks_andThen (p := Operation.cache _) (asked.bind fun _ => .done _) fun lifetime => ?_
  split
  · refine asks_andThen (asks_lift (spares_get (Key.loginAttempts_not_isLock address))) fun found => ?_
    split
    · exact .done _
    · exact .done _
  · exact .done _

theorem spares_decode [Storable α] (plain : ¬Key.IsLock key) (cached : Cache.Cached) :
    AsksOnly Effect.SparesLocks (a.decode key cached : Operation (Option α)).run := by
  cases cached with
  | absent => exact .done _
  | value bytes =>
    rw [decode]
    split
    · exact .done _
    · refine asks_andThen (asks_lift (spares_warn _)) fun _ => ?_
      exact asks_andThen (asks_lift (spares_invalidate (List.forall_mem_singleton.2 plain))) fun _ => .done _

theorem spares_database (r : Database.Request) : AsksOnly Effect.SparesLocks (Operation.database r).run :=
  asks_database trivial

/-- Whether a program holds in the end the locks that it held at the start,
whatever it hears. -/
def Restores (held : List (String × Cache.Lock)) (p : Action α) : Prop :=
  p.Conforms Holding (fun held' _ => held' = held) held

theorem Restores.of_asks {p : Action α} (asks : AsksOnly Effect.SparesLocks p) : Restores held p :=
  asks.conforms fun _ spares _ => .aside spares

theorem Restores.andThen {p : Operation α} {f : α → Operation β} (first : Restores held p.run)
    (rest : ∀ value, Restores held (f value).run) : Restores held (p >>= f).run := by
  refine conforms_bind first ?_ fun _ _ same => same
  rintro _ value rfl
  exact rest value

theorem holds_lift {p : Action α} {f : α → Operation β} {middle : List (String × Cache.Lock) → α → Prop}
    {ends : List (String × Cache.Lock) → Except Error β → Prop} (first : p.Conforms Holding middle held)
    (rest : ∀ held value, middle held value → (f value).run.Conforms Holding ends held) :
    (ExceptT.lift p >>= f).run.Conforms Holding ends held := by
  rw [ExceptT.run_bind_lift]
  exact first.bind rest

/-- A lookup that does not say what is cached may have got the lock. -/
theorem holds_lookup [Storable α] (plain : ¬Key.IsLock key) (free : ∀ x ∈ held, x.1 ≠ key) :
    (a.lookup key : Operation (Lookup α)).run.Conforms Holding
      (fun held' outcome => held' = match outcome with | .ok (.load lock) => withLock held key lock | _ => held)
      held := by
  have got : (Operation.cache (a.cache.getOrLock key)).run.Conforms Holding
      (fun held' outcome => held' = withLock held key (outcome.toOption.bind Cache.Lookup.lock?)) held := by
    refine (a.cache.holds_getOrLock plain free).bind ?_
    rintro _ outcome rfl
    cases outcome with
    | ok | error => exact rfl
  refine conforms_bind got ?_ ?_
  · rintro _ found rfl
    cases found with
    | hit value =>
      refine conforms_bind (Restores.of_asks (spares_decode plain value)) ?_ fun _ _ same => same
      rintro _ value rfl
      exact rfl
    | owner | bypass => exact rfl
  · rintro _ e rfl
    exact rfl

theorem holds_releaseLoad (lock : Option Cache.Lock) :
    (releaseLoad lock).Conforms Holding (fun held' _ => held' = held) (withLock held key lock) := by
  cases lock with
  | none => exact rfl
  | some lock =>
    have warned : ∀ message, Restores held (Action.warn message) := fun message => .of_asks (spares_warn message)
    refine fun answer => ⟨held, .release, ?_⟩
    rcases answer with e | _ | _
    · exact warned _
    · exact warned _
    · exact rfl

/-- A read gives back the lock of its key, however the load ends. -/
theorem Restores.read [Storable α] (plain : ¬Key.IsLock key) (free : ∀ x ∈ held, x.1 ≠ key)
    {load : Operation (Option α)} (loads : ∀ lock, Restores (withLock held key lock) load.run) :
    Restores held (a.read key load).run := by
  refine conforms_bind (holds_lookup plain free) ?_ fun _ _ same => same
  rintro _ found rfl
  cases found with
  | cached value => exact rfl
  | load lock =>
    refine holds_lift (loads lock) ?_
    rintro _ outcome rfl
    exact holds_lift (holds_releaseLoad lock) fun _ _ same => same

namespace Restores

theorem done (value : α) : Restores held (.done value) := rfl

theorem database (r : Database.Request) : Restores held (Operation.database r).run := .of_asks (spares_database r)

theorem invalidate {keys : List String} (plain : ∀ key ∈ keys, ¬Key.IsLock key) :
    Restores held (ExceptT.lift (a.invalidate keys) : Operation Unit).run :=
  .of_asks (asks_lift (spares_invalidate plain))

theorem load [Storable α] (plain : ¬Key.IsLock key) (r : Database.Request) (found : r.Result → Option α) :
    Restores held (Operation.database r >>= fun value => a.fillFound key (found value)).run :=
  (database r).andThen fun _ => .of_asks (spares_fillFound plain _)

theorem findUser (id : Uuid) (free : ∀ x ∈ held, x.1 ≠ Key.user id) : Restores held (a.findUser id).run :=
  have plain := (Datum.user id).key_not_isLock
  read plain free fun _ => load plain (.findUser id) fun found => found

theorem findUserByEmail (address : String) : Restores [] (a.findUserByEmail address).run := by
  have plain := (Datum.email address).key_not_isLock
  have led : Restores [] (a.findUserId address).run :=
    read plain (List.forall_mem_nil _) fun _ => load plain (.findUserByEmail address) fun found => found.map (·.id)
  refine led.andThen fun found => ?_
  cases found with
  | some id => exact findUser id (List.forall_mem_nil _)
  | none => exact done _

theorem cacheSession (row : Session) :
    Restores held (ExceptT.lift (a.cacheSession row) : Operation Unit).run :=
  .of_asks (asks_lift (spares_cacheSession row))

theorem fillPermission (p : Permission) : Restores held (ExceptT.lift (a.fillPermission p) : Operation Unit).run :=
  .of_asks (asks_lift (spares_fillPermission p))

/-- The owner of a session is looked for while the lock of the session is
held, so the two locks have to be those of different keys. -/
theorem completeSession (plain : ¬Key.IsLock key) (free : ∀ id, ∀ x ∈ held, x.1 ≠ Key.user id)
    (found : Option Session) : Restores held (a.completeSession key found).run := by
  cases found with
  | none => exact andThen (.of_asks (asks_lift (spares_fillAbsent plain))) fun _ => done _
  | some row =>
    refine (findUser row.userId (free _)).andThen fun owner => ?_
    cases owner with
    | none => exact andThen (.of_asks (asks_lift (spares_warn _))) fun _ => done _
    | some user => exact (cacheSession _).andThen fun _ => done _

/-- The lock of a session is no lock of a user. -/
theorem readSession {d : Datum} (other : ∀ id, d ≠ .user id) (r : Database.Request)
    (found : r.Result → Option Session) :
    Restores [] (a.read d.key (Operation.database r >>= fun value => a.completeSession d.key (found value))).run := by
  refine read d.key_not_isLock (List.forall_mem_nil _) fun lock => (database r).andThen fun _ => ?_
  refine completeSession d.key_not_isLock (fun id x member => ?_) _
  cases lock with
  | none => cases member
  | some lock =>
    obtain rfl := List.mem_singleton.1 member
    exact fun same => other id (Datum.key_injective (b := .user id) same)

theorem findSession (id : Int) : Restores [] (a.findSession id).run :=
  readSession (d := .session id) (fun _ => nofun) (.findSession id) fun found => found

end Restores

theorem userKeys_not_isLock (id : Uuid) (address : String) : ∀ key ∈ userKeys id address, ¬Key.IsLock key := by
  intro key member
  simp only [userKeys, List.mem_cons, List.not_mem_nil, or_false] at member
  rcases member with rfl | rfl | rfl
  · exact (Datum.user id).key_not_isLock
  · exact (Datum.email address).key_not_isLock
  · exact (Datum.password id).key_not_isLock

theorem sessionKeys_not_isLock (id : Int) (access refresh : String) :
    ∀ key ∈ sessionKeys id access refresh, ¬Key.IsLock key := by
  intro key member
  simp only [sessionKeys, List.mem_cons, List.not_mem_nil, or_false] at member
  rcases member with rfl | rfl | rfl
  · exact (Datum.token access).key_not_isLock
  · exact (Datum.token refresh).key_not_isLock
  · exact (Datum.session id).key_not_isLock

theorem Job.restores {α : Type} (job : Job α) : Restores [] (job.perform a).run := by
  cases job with
  | createUser user hash =>
    exact (Restores.database (.createUser user hash)).andThen fun _ => .invalidate (userKeys_not_isLock _ _)
  | updateUser user =>
    refine (Restores.database (.updateUser user)).andThen fun found => ?_
    cases found with
    | none => exact .done _
    | some row =>
      refine (Restores.invalidate fun key member => ?_).andThen fun _ => .findUser row.id (List.forall_mem_nil _)
      have names := userKeys_not_isLock row.id row.email
      split at member
      · exact names key member
      · rcases List.mem_append.1 member with own | old
        · exact names key own
        · rw [List.mem_singleton.1 old]
          exact (Datum.email user.email).key_not_isLock
  | deleteUser id =>
    refine (Restores.database (.deleteUser id)).andThen fun found => ?_
    refine (Restores.invalidate ?_).andThen fun _ => .done _
    cases found with
    | some user => exact userKeys_not_isLock _ _
    | none =>
      exact List.forall_mem_cons.2 ⟨(Datum.user id).key_not_isLock,
        List.forall_mem_singleton.2 (Datum.password id).key_not_isLock⟩
  | updatePassword id hash =>
    refine (Restores.database (.updatePassword id hash)).andThen fun _ => .invalidate ?_
    exact List.forall_mem_cons.2 ⟨(Datum.password id).key_not_isLock,
      List.forall_mem_singleton.2 (Datum.user id).key_not_isLock⟩
  | findUser id => exact .findUser id (List.forall_mem_nil _)
  | findUserByEmail address => exact .findUserByEmail address
  | findPassword id =>
    have plain := (Datum.password id).key_not_isLock
    exact .read plain (List.forall_mem_nil _) fun _ => .load plain (.findPassword id) fun found => found
  | createSession row =>
    exact (Restores.database (.createSession row)).andThen fun created =>
      (Restores.cacheSession created).andThen fun _ => .done _
  | refreshSession old tokens =>
    refine (Restores.database (.updateTokens old.id tokens)).andThen fun _ => ?_
    refine (Restores.invalidate fun key member => ?_).andThen fun _ => .findSession old.id
    rcases List.mem_append.1 member with own | new
    · exact sessionKeys_not_isLock _ _ _ key own
    · simp only [List.mem_cons, List.not_mem_nil, or_false] at new
      rcases new with rfl | rfl
      · exact (Datum.token tokens.accessToken).key_not_isLock
      · exact (Datum.token tokens.refreshToken).key_not_isLock
  | deleteSession row =>
    exact (Restores.database (.deleteSession row.id)).andThen fun _ => .invalidate (sessionKeys_not_isLock _ _ _)
  | findSessionByToken type text =>
    exact .readSession (d := .token text) (fun _ => nofun) (.findSessionByToken type text) fun found => found
  | findSession id => exact .findSession id
  | checkToken text =>
    have asks : AsksOnly Effect.SparesLocks (a.checkToken text) := by
      refine (spares_get (Datum.token text).key_not_isLock).bind fun found => ?_
      cases found with
      | none | some => exact .done _
    exact .of_asks (asks_lift asks)
  | createGrant grant =>
    exact (Restores.database (.createGrant grant)).andThen fun _ =>
      .invalidate (List.forall_mem_singleton.2 Datum.permission.key_not_isLock)
  | loadPermission =>
    have plain := Datum.permission.key_not_isLock
    refine (Restores.read plain (List.forall_mem_nil _) fun lock => ?_).andThen fun _ => .done _
    exact (Restores.database .findGrants).andThen fun grants => (Restores.fillPermission _).andThen fun _ => .done _

/-- An operation gives back every lock it gets, whatever it hears and
whatever it ends with. -/
theorem Service.restores {α : Type} (service : Service α) : Restores [] (service.perform a).run := by
  cases service with
  | job job => exact job.restores
  | countLoginAttempt address => exact .of_asks (asks_countLoginAttempt fun _ own => spares_counter own)
  | isLoginLocked address => exact .of_asks (spares_isLoginLocked address)

end Accounts

end AccountCache
