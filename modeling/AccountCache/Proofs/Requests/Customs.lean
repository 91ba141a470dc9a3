import AccountCache.Proofs.Coherence.Readers
import AccountCache.Proofs.Faults.Services
import AccountCache.Proofs.Lifetimes.Conduct

namespace AccountCache

namespace Program

variable {I : Interface} {σ α β : Type} {known : Exchange I → Prop} {kind : I.Request → Prop} {p q : Program I α}

/-- Whether whatever a program asks for is of some kind, as long as it
hears nothing but what is known. What it would ask after anything else
does not count. -/
def Minds (known : Exchange I → Prop) (kind : I.Request → Prop) : Program I α → Prop
  | done _ => True
  | ask r next => kind r ∧ ∀ answer, known ⟨r, answer⟩ → (next answer).Minds known kind

namespace Minds

theorem done (value : α) : (done value : Program I α).Minds known kind := trivial

theorem ask {r : I.Request} {next : I.Answer r → Program I α} (own : kind r)
    (rest : ∀ answer, (next answer).Minds known kind) : (Program.ask r next).Minds known kind :=
  ⟨own, fun answer _ => rest answer⟩

theorem bind {f : α → Program I β} (first : p.Minds known kind) (rest : ∀ value, (f value).Minds known kind) :
    (p.bind f).Minds known kind := by
  induction p with
  | done value => exact rest value
  | ask r next ih => exact ⟨first.1, fun answer isKnown => ih answer (first.2 answer isKnown)⟩

/-- Wherever a program comes to that has heard only what is known, it asks
on for nothing else. -/
theorem of_course {talk : List (Exchange I)} (minds : p.Minds known kind) (course : p.Course talk q)
    (heard : ∀ x ∈ talk, known x) : q.Minds known kind := by
  induction course with
  | stay => exact minds
  | ask answer _ ih =>
    obtain ⟨first, rest⟩ := List.forall_mem_cons.1 heard
    exact ih (minds.2 answer first) rest

theorem conforms {moves : Discipline I σ} {s : σ} (minds : p.Minds (fun _ => True) kind)
    (stays : ∀ r, kind r → ∀ answer, moves s r answer s) : p.Conforms moves (fun s' _ => s' = s) s := by
  induction p with
  | done value => exact rfl
  | ask r next ih => exact fun answer => ⟨s, stays r minds.1 answer, ih answer (minds.2 answer trivial)⟩

end Minds

end Program

open Program (Minds)

variable {known : Exchange effects → Prop} {kind : effects.Request → Prop} {α β : Type}

namespace Cache

/-- What a caller may ask for who wants a value or the lock of its key. The
end of the wait may be out of reach only of a clock that is known to show
some such moment. -/
structure Manager.Customs (m : Manager) (known : Exchange effects → Prop) (kind : Effect → Prop) : Prop where
  quiet : ∀ e, e.IsQuiet → e ≠ .overflow → kind e
  wait : ∀ answer, known ⟨.clock .start, answer⟩ → answer.1.add? m.policy.waitBudget = none → kind .overflow
  get : ∀ key, kind (.cache (.get key))
  isHeld : ∀ key, kind (.cache (.isHeld key))
  acquire : ∀ key, kind (.cache (.acquire key m.policy.lockDuration m.policy.lockTries))
  release : ∀ lock, kind (.cache (.release lock))

namespace Manager

variable {m : Manager} (customs : m.Customs known kind) (key : String)

include customs

theorem minds_warn (message : String) : (Action.warn message).Minds known kind :=
  .ask (customs.quiet (.warn message) trivial nofun) fun _ => .done _

theorem minds_checkCache : (checkCache key).Minds known kind := by
  refine .ask (customs.get key) fun answer => ?_
  cases answer with
  | ok value => exact .done _
  | error e => exact (minds_warn customs _).bind fun _ => .done _

theorem minds_get : (m.get key).Minds known kind := by
  rw [Manager.get]
  split
  · exact .done _
  · exact minds_checkCache customs key

theorem minds_tryLock : (m.tryLock key).Minds known kind := by
  refine .ask (customs.acquire key) fun answer => ?_
  rcases answer with e | _ | lock
  · exact (minds_warn customs _).bind fun _ => .done _
  · exact .done _
  · exact .done _

theorem minds_isLocked : (isLocked key).Minds known kind := by
  refine .ask (customs.isHeld key) fun answer => ?_
  cases answer with
  | ok held => exact .done _
  | error e => exact (minds_warn customs _).bind fun _ => .done _

theorem minds_poll : (m.poll key).Minds known kind := by
  refine (minds_isLocked customs key).bind fun held => ?_
  cases held with
  | true => exact .done _
  | false =>
    refine (minds_checkCache customs key).bind fun found => ?_
    cases found with
    | some value => exact .done _
    | none =>
      refine (minds_tryLock customs key).bind fun outcome => ?_
      cases outcome with
      | acquired | contended | unavailable => exact .done _

theorem minds_pollDelay (attempt : Nat) : (pollDelay attempt).Minds known kind := by
  rw [pollDelay]
  split
  · exact .ask (customs.quiet (.draw _ _) trivial (by simp)) fun _ => .done _
  · exact .done _

theorem minds_giveUp (started now : Instant) : (giveUp key started now).Minds known kind :=
  .ask (customs.quiet (.clock now) trivial nofun) fun _ => (minds_warn customs _).bind fun _ => .done _

theorem minds_awaitOwner (started deadline last : Instant) (attempt : Nat) :
    (m.awaitOwner key started deadline last attempt).Minds known kind := by
  induction left : deadline.nanos - last.nanos using Nat.strongRecOn generalizing last attempt with
  | ind left ih =>
    rw [awaitOwner]
    refine (minds_poll customs key).bind fun found => ?_
    cases found with
    | some found => exact .done _
    | none =>
      refine .ask (customs.quiet (.clock last) trivial (by simp)) fun answer => ?_
      obtain ⟨now, later⟩ := answer
      by_cases ended : deadline ≤ now
      · simp only [Program.bind_done, dif_pos ended]
        exact minds_giveUp customs key started now
      · simp only [Program.bind_done, dif_neg ended]
        refine (minds_pollDelay customs attempt).bind fun drawn => ?_
        obtain ⟨delay, bounds⟩ := drawn
        refine .ask (customs.quiet (.sleep _) trivial (by simp)) fun answer => ?_
        obtain ⟨woken, slept⟩ := answer
        -- The sleep takes some time, so that less of the wait is left.
        refine ih (deadline.nanos - woken.nanos) ?_ woken (attempt + 1) rfl
        have long := bounds.1
        simp only [Instant.le_def, Instant.after, Instant.since, Duration.le_def, Duration.nanos_min,
          Duration.ofMillis, Duration.nanos_ofNanos, Duration.maxNanos] at ended later slept long
        omega

theorem minds_wait : (m.wait key).Minds known kind := by
  refine ⟨customs.quiet (.clock .start) trivial nofun, fun answer isKnown => ?_⟩
  obtain ⟨started, from_⟩ := answer
  simp only [Program.bind_done]
  cases ends : started.add? m.policy.waitBudget with
  | some deadline => exact minds_awaitOwner customs key started deadline started 0
  | none => exact ⟨customs.wait ⟨started, from_⟩ isKnown ends, fun answer => answer.elim⟩

theorem minds_getOrLock : (m.getOrLock key).Minds known kind := by
  rw [getOrLock]
  split
  · exact .done _
  · refine (minds_checkCache customs key).bind fun found => ?_
    cases found with
    | some value => exact .done _
    | none =>
      refine (minds_tryLock customs key).bind fun outcome => ?_
      cases outcome with
      | acquired | unavailable => exact .done _
      | contended => exact minds_wait customs key

theorem minds_release (lock : Lock) : (release lock).Minds known kind := by
  refine .ask (customs.release lock) fun answer => ?_
  rcases answer with e | _ | _
  · exact minds_warn customs _
  · exact minds_warn customs _
  · exact .done _

omit customs

theorem minds_store {item : Item} (own : m.policy.disabled = false → kind (.cache (.set (m.entry item)))) :
    (m.store item).Minds known kind := by
  rw [Manager.store]
  split
  · exact .done _
  · next enabled => exact .ask (own (Bool.eq_false_iff.2 enabled)) fun _ => .done _

theorem minds_storeMany {items : List Item}
    (own : m.policy.disabled = false → kind (.cache (.setMany (items.map m.entry)))) :
    (m.storeMany items).Minds known kind := by
  rw [Manager.storeMany]
  split
  · exact .done _
  · next enabled =>
    rw [Bool.or_eq_true, not_or] at enabled
    exact .ask (own (Bool.eq_false_iff.2 enabled.1)) fun _ => .done _

theorem minds_delete {keys : List String} (own : kind (.cache (.delete keys))) :
    (m.delete keys).Minds known kind := by
  rw [Manager.delete]
  split
  · exact .done _
  · exact .ask own fun _ => .done _

variable {key : String}

theorem minds_increment (own : kind (.cache (.increment key))) : (m.increment key).Minds known kind := by
  rw [Manager.increment]
  split
  · exact .done _
  · exact .ask own fun _ => .done _

theorem minds_expire {ttl : Duration} (own : m.policy.disabled = false → kind (.cache (.expire key ttl))) :
    (m.expire key ttl).Minds known kind := by
  rw [Manager.expire]
  split
  · exact .done _
  · next enabled =>
    refine .ask (own (Bool.eq_false_iff.2 enabled)) fun answer => ?_
    cases answer with
    | ok | error => exact .done _

theorem minds_lifetime (own : kind (.cache (.ttl key))) : (m.lifetime key).Minds known kind := by
  rw [Manager.lifetime]
  split
  · exact .done _
  · refine .ask own fun answer => ?_
    cases answer with
    | ok | error => exact .done _

end Manager

end Cache

namespace Accounts

/-- What operations on accounts may ask for, the two on grants and the
counting of failed logins aside. Only what may be a copy of something is
dropped, and nothing is written while the cache is switched off. -/
structure Customs (a : Accounts) (known : Exchange effects → Prop) (kind : Effect → Prop) : Prop
    extends a.cache.Customs known kind where
  query : ∀ r, (∀ g, r ≠ .createGrant g) → kind (.database r)
  delete : ∀ data : List Datum, kind (.cache (.delete (data.map Datum.key)))
  fill : ∀ (d : Datum) bytes, a.cache.policy.disabled = false → d ≠ .permission →
    kind (.cache (.set (a.cache.entry (.new d.key bytes))))
  mark : ∀ d : Datum, a.cache.policy.disabled = false → d ≠ .permission →
    kind (.cache (.set (a.cache.entry ⟨d.key, Cache.nilBytes, a.cache.policy.nilTtl⟩)))
  sessions : ∀ (s : Session) bytes now later, a.cache.policy.disabled = false → Storable.encode? s = some bytes →
    known ⟨.wallClock, now⟩ → known ⟨.wallClock, later⟩ →
    kind (.cache (.setMany ((sessionItems s bytes now later).map a.cache.entry)))
  lifetime : ∀ address, kind (.cache (.ttl (Key.loginAttempts address)))

/-- What the counting of failed logins may ask for. -/
structure Counting (a : Accounts) (kind : Effect → Prop) : Prop where
  count : ∀ address, kind (.cache (.increment (Key.loginAttempts address)))
  prolong : ∀ address, a.cache.policy.disabled = false →
    kind (.cache (.expire (Key.loginAttempts address) a.login.lockTtl))

def Job.IsAboutGrants : Job α → Prop
  | .createGrant _ | .loadPermission => True
  | _ => False

def Service.IsAboutGrants : Service α → Prop
  | .job j => j.IsAboutGrants
  | _ => False

variable {a : Accounts} {d : Datum}

theorem countLoginAttempt_bind (enabled : a.cache.policy.disabled = false) (address : String)
    (f : Except Error Int → Action α) : (a.countLoginAttempt address).run.bind f =
      .ask (.cache (.increment (Key.loginAttempts address))) fun
        | .ok n => .ask (.cache (.expire (Key.loginAttempts address) a.login.lockTtl)) fun
          | .ok _ => f (.ok n)
          | .error e => f (.error (.cache e))
        | .error e => f (.error (.cache e)) := by
  have here := Bool.eq_false_iff.1 enabled
  unfold countLoginAttempt
  simp only [Cache.Manager.increment, Cache.Manager.expire, if_neg here]
  refine congrArg (Program.ask _) (funext fun answer => ?_)
  cases answer with
  | error e => rfl
  | ok n =>
    refine congrArg (Program.ask _) (funext fun answer => ?_)
    cases answer with
    | ok | error => rfl

theorem minds_andThen {p : Operation α} {f : α → Operation β} (first : p.run.Minds known kind)
    (rest : ∀ value, (f value).run.Minds known kind) : (p >>= f).run.Minds known kind := by
  refine first.bind (f := ExceptT.bindCont f) fun outcome => ?_
  cases outcome with
  | ok value => exact rest value
  | error e => exact .done _

theorem minds_lift {p : Action α} (minds : p.Minds known kind) :
    (ExceptT.lift p : Operation α).run.Minds known kind :=
  minds.bind fun _ => .done _

theorem minds_database {r : Database.Request} (asked : kind (.database r)) :
    (Operation.database r).run.Minds known kind :=
  .ask asked fun _ => .done _

theorem minds_cache {p : Action (Except Cache.Error α)} (minds : p.Minds known kind) :
    (Operation.cache p).run.Minds known kind :=
  minds.bind fun _ => .done _

section

variable (customs : a.cache.Customs known kind)

include customs

theorem minds_invalidate {keys : List String} (drop : kind (.cache (.delete keys))) :
    (a.invalidate keys).Minds known kind := by
  refine (Cache.Manager.minds_delete drop).bind fun outcome => ?_
  cases outcome with
  | ok => exact .done _
  | error e => exact Cache.Manager.minds_warn customs _

theorem minds_releaseLoad (lock : Option Cache.Lock) : (releaseLoad lock).Minds known kind := by
  cases lock with
  | none => exact .done _
  | some lock => exact Cache.Manager.minds_release customs lock

variable [Storable α]

theorem minds_decode {key : String} (drop : kind (.cache (.delete [key]))) (cached : Cache.Cached) :
    (a.decode key cached : Operation (Option α)).run.Minds known kind := by
  cases cached with
  | absent => exact .done _
  | value bytes =>
    rw [decode]
    split
    · exact .done _
    · refine minds_andThen (minds_lift (Cache.Manager.minds_warn customs _)) fun _ => ?_
      exact minds_andThen (minds_lift (minds_invalidate customs drop)) fun _ => .done _

/-- Besides what its load asks for a read looks at the cache, and drops what
makes no sense. -/
theorem minds_read {key : String} (drop : kind (.cache (.delete [key]))) {load : Operation (Option α)}
    (loads : load.run.Minds known kind) : (a.read key load).run.Minds known kind := by
  have found : (Operation.cache (a.cache.getOrLock key)).run.Minds known kind :=
    minds_cache (Cache.Manager.minds_getOrLock customs key)
  have lookup : (a.lookup key : Operation (Lookup α)).run.Minds known kind := by
    refine minds_andThen found fun outcome => ?_
    cases outcome with
    | hit cached => exact minds_andThen (minds_decode customs drop cached) fun _ => .done _
    | owner | bypass => exact .done _
  refine minds_andThen lookup fun found => ?_
  cases found with
  | cached value => exact .done _
  | load lock =>
    exact minds_andThen (minds_lift loads) fun _ => minds_andThen (minds_lift (minds_releaseLoad customs lock)) fun _ =>
      .done _

end

section

variable (customs : a.Customs known kind)

include customs

theorem minds_fillAbsent (other : d ≠ .permission) : (a.fillAbsent d.key).Minds known kind := by
  have stored : (a.cache.storeAbsent d.key).Minds known kind :=
    Cache.Manager.minds_store fun enabled => customs.mark d enabled other
  refine stored.bind fun outcome => ?_
  cases outcome with
  | ok => exact .done _
  | error e => exact Cache.Manager.minds_warn customs.toCustoms _

theorem minds_fillFound [Storable α] (other : d ≠ .permission) (found : Option α) :
    (a.fillFound d.key found).run.Minds known kind := by
  cases found with
  | none => exact minds_andThen (minds_lift (minds_fillAbsent customs other)) fun _ => .done _
  | some value =>
    have filled : (a.fill d.key value).Minds known kind := by
      rw [fill]
      split
      · exact Cache.Manager.minds_warn customs.toCustoms _
      · next bytes _ =>
        refine (Cache.Manager.minds_store fun enabled => customs.fill d bytes enabled other).bind fun outcome => ?_
        cases outcome with
        | ok => exact .done _
        | error e => exact Cache.Manager.minds_warn customs.toCustoms _
    exact minds_andThen (minds_lift filled) fun _ => .done _

theorem minds_readRow [Storable α] (d : Datum) (other : d ≠ .permission) (r : Database.Request)
    (notGrant : ∀ g, r ≠ .createGrant g) (f : r.Result → Option α) :
    (a.read d.key (Operation.database r >>= fun found => a.fillFound d.key (f found))).run.Minds known kind :=
  minds_read customs.toCustoms (customs.delete [d]) <|
    minds_andThen (minds_database (customs.query r notGrant)) fun _ => minds_fillFound customs other _

theorem minds_findUser (id : Uuid) : (a.findUser id).run.Minds known kind :=
  minds_readRow customs (.user id) nofun (.findUser id) (fun _ => nofun) fun found => found

theorem minds_findUserId (address : String) : (a.findUserId address).run.Minds known kind := by
  have other : Datum.email address ≠ .permission := nofun
  have row := minds_readRow customs (α := Uuid) _ other (.findUserByEmail address) (fun _ => nofun)
    fun found : Option User => found.map (·.id)
  exact row

theorem minds_cacheSession (s : Session) : (a.cacheSession s).Minds known kind := by
  cases encoded : Storable.encode? s with
  | none =>
    unfold cacheSession
    rw [encoded]
    exact Cache.Manager.minds_warn customs.toCustoms _
  | some bytes =>
    rw [cacheSession_eq a encoded]
    have clock := customs.quiet .wallClock trivial nofun
    refine ⟨clock, fun now early => ⟨clock, fun later late => ?_⟩⟩
    have stored : (a.cache.storeMany (sessionItems s bytes now later)).Minds known kind :=
      Cache.Manager.minds_storeMany fun enabled => customs.sessions s bytes now later enabled encoded early late
    refine stored.bind fun outcome => ?_
    cases outcome with
    | ok => exact .done _
    | error e => exact Cache.Manager.minds_warn customs.toCustoms _

theorem minds_completeSession (other : d ≠ .permission) (found : Option Session) :
    (a.completeSession d.key found).run.Minds known kind := by
  cases found with
  | none => exact minds_andThen (minds_lift (minds_fillAbsent customs other)) fun _ => .done _
  | some s =>
    refine minds_andThen (minds_findUser customs s.userId) fun owner => ?_
    cases owner with
    | none => exact minds_andThen (minds_lift (Cache.Manager.minds_warn customs.toCustoms _)) fun _ => .done _
    | some user => exact minds_andThen (minds_lift (minds_cacheSession customs _)) fun _ => .done _

theorem minds_readSession (d : Datum) (other : d ≠ .permission) (r : Database.Request)
    (notGrant : ∀ g, r ≠ .createGrant g) (f : r.Result → Option Session) :
    (a.read d.key (Operation.database r >>= fun found => a.completeSession d.key (f found))).run.Minds known kind :=
  minds_read customs.toCustoms (customs.delete [d]) <|
    minds_andThen (minds_database (customs.query r notGrant)) fun _ => minds_completeSession customs other _

theorem minds_invalidated (data : List Datum) :
    (ExceptT.lift (a.invalidate (data.map Datum.key)) : Operation Unit).run.Minds known kind :=
  minds_lift (minds_invalidate customs.toCustoms (customs.delete data))

theorem Job.minds (job : Job α) (aside : ¬job.IsAboutGrants) : (job.perform a).run.Minds known kind := by
  have wrote : ∀ r : Database.Request, (∀ g, r ≠ .createGrant g) → (Operation.database r).run.Minds known kind :=
    fun r notGrant => minds_database (customs.query r notGrant)
  cases job with
  | createUser user hash => exact minds_andThen (wrote _ fun _ => nofun) fun _ => minds_invalidated customs user.data
  | updateUser user =>
    refine minds_andThen (wrote _ fun _ => nofun) fun found => ?_
    cases found with
    | none => exact .done _
    | some row =>
      refine minds_andThen ?_ fun _ => minds_findUser customs row.id
      split
      · exact minds_invalidated customs row.data
      · exact minds_invalidated customs (row.data ++ [.email user.email])
  | deleteUser id =>
    refine minds_andThen (wrote _ fun _ => nofun) fun deleted => minds_andThen ?_ fun _ => .done _
    cases deleted with
    | some user => exact minds_invalidated customs user.data
    | none => exact minds_invalidated customs [.user id, .password id]
  | updatePassword id hash =>
    exact minds_andThen (wrote _ fun _ => nofun) fun _ => minds_invalidated customs [.password id, .user id]
  | findUser id => exact minds_findUser customs id
  | findUserByEmail address =>
    refine minds_andThen (minds_findUserId customs address) fun found => ?_
    cases found with
    | some id => exact minds_findUser customs id
    | none => exact .done _
  | findPassword id =>
    exact minds_readRow customs (.password id) nofun (.findPassword id) (fun _ => nofun) fun found => found
  | createSession s =>
    exact minds_andThen (wrote _ fun _ => nofun) fun created =>
      minds_andThen (minds_lift (minds_cacheSession customs created)) fun _ => .done _
  | refreshSession old tokens =>
    have dropped := minds_invalidated customs [.token old.accessToken, .token old.refreshToken, .session old.id,
      .token tokens.accessToken, .token tokens.refreshToken]
    refine minds_andThen (wrote _ fun _ => nofun) fun _ => minds_andThen dropped fun _ => ?_
    exact minds_readSession customs (.session old.id) nofun (.findSession old.id) (fun _ => nofun) fun found => found
  | deleteSession s =>
    exact minds_andThen (wrote _ fun _ => nofun) fun _ =>
      minds_invalidated customs [.token s.accessToken, .token s.refreshToken, .session s.id]
  | findSessionByToken type text =>
    have asked : ∀ g, Database.Request.findSessionByToken type text ≠ .createGrant g := fun _ => nofun
    exact minds_readSession customs (.token text) nofun (.findSessionByToken type text) asked fun found => found
  | findSession id =>
    exact minds_readSession customs (.session id) nofun (.findSession id) (fun _ => nofun) fun found => found
  | checkToken text =>
    refine minds_lift ((Cache.Manager.minds_get customs.toCustoms _).bind fun found => ?_)
    cases found with
    | none | some => exact .done _
  | createGrant | loadPermission => exact absurd trivial aside

omit customs in
theorem minds_countLoginAttempt (counting : a.Counting kind) (address : String) :
    (a.countLoginAttempt address).run.Minds known kind :=
  minds_andThen (minds_cache (Cache.Manager.minds_increment (counting.count address))) fun _ =>
    minds_andThen (minds_cache (Cache.Manager.minds_expire (counting.prolong address))) fun _ => .done _

theorem minds_isLoginLocked (address : String) : (a.isLoginLocked address).run.Minds known kind := by
  refine minds_andThen (minds_cache (Cache.Manager.minds_lifetime (customs.lifetime address))) fun lifetime => ?_
  split
  · refine minds_andThen (minds_lift (Cache.Manager.minds_get customs.toCustoms _)) fun found => ?_
    split
    · exact .done _
    · exact .done _
  · exact .done _

theorem minds_createGrant {g : Grant} (grant : kind (.database (.createGrant g))) :
    (a.createGrant g).run.Minds known kind :=
  minds_andThen (minds_database grant) fun _ => minds_invalidated customs [.permission]

theorem minds_loadPermission (snapshot : ∀ bytes, a.cache.policy.disabled = false →
    kind (.cache (.set (a.cache.entry ⟨Key.permission, bytes, permissionTtl⟩)))) :
    a.loadPermission.run.Minds known kind := by
  have loads : ∀ grants, (a.fillPermission (.ofGrants grants)).Minds known kind := fun grants => by
    refine (Cache.Manager.minds_store (snapshot _)).bind fun outcome => ?_
    cases outcome with
    | ok => exact .done _
    | error e => exact Cache.Manager.minds_warn customs.toCustoms _
  refine minds_andThen (minds_read customs.toCustoms (customs.delete [.permission]) ?_) fun _ => .done _
  refine minds_andThen (minds_database (customs.query .findGrants fun _ => nofun)) fun grants => ?_
  exact minds_andThen (minds_lift (loads grants)) fun _ => .done _

/-- Where making grants is customary, and caching a snapshot of them, so are
the two operations on grants. -/
theorem Job.minds_of_grants (grant : ∀ g, kind (.database (.createGrant g)))
    (snapshot : ∀ bytes, a.cache.policy.disabled = false →
      kind (.cache (.set (a.cache.entry ⟨Key.permission, bytes, permissionTtl⟩)))) (job : Job α) :
    (job.perform a).run.Minds known kind := by
  by_cases about : job.IsAboutGrants
  · cases job with
    | createGrant g => exact minds_createGrant customs (grant g)
    | loadPermission => exact minds_loadPermission customs snapshot
    | _ => cases about
  · exact job.minds customs about

variable (counting : a.Counting kind)

include counting

/-- Operations that are not about grants ask for what is customary. -/
theorem Service.minds (service : Service α) (aside : ¬service.IsAboutGrants) :
    (service.perform a).run.Minds known kind := by
  cases service with
  | job job => exact job.minds customs aside
  | countLoginAttempt address => exact minds_countLoginAttempt counting address
  | isLoginLocked address => exact minds_isLoginLocked customs address

/-- So do all operations where making grants is customary, and caching a
snapshot of them. -/
theorem Service.minds_of_grants (grant : ∀ g, kind (.database (.createGrant g)))
    (snapshot : ∀ bytes, a.cache.policy.disabled = false →
      kind (.cache (.set (a.cache.entry ⟨Key.permission, bytes, permissionTtl⟩)))) (service : Service α) :
    (service.perform a).run.Minds known kind := by
  cases service with
  | job job => exact job.minds_of_grants customs grant snapshot
  | countLoginAttempt address => exact minds_countLoginAttempt counting address
  | isLoginLocked address => exact minds_isLoginLocked customs address

end

end Accounts

end AccountCache
