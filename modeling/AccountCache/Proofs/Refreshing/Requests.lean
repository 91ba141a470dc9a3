import AccountCache.Accounts.Permissions
import AccountCache.Accounts.Sessions
import AccountCache.Proofs.Coherence.Datum
import AccountCache.Proofs.Interleaving.GetOrLock
import AccountCache.Proofs.Store.Call

namespace AccountCache

namespace Program

variable {I : Interface} {σ α β : Type} {kind : I.Request → Prop} {p : Program I α}

/-- Whether whatever a program asks for is of some kind. -/
def AsksOnly (kind : I.Request → Prop) (p : Program I α) : Prop :=
  p.Conforms (fun (_ : Unit) r _ _ => kind r) (fun _ _ => True) ()

namespace AsksOnly

theorem done (value : α) : (done value : Program I α).AsksOnly kind := trivial

theorem ask {r : I.Request} {next : I.Answer r → Program I α} (own : kind r)
    (rest : ∀ answer, (next answer).AsksOnly kind) : (Program.ask r next).AsksOnly kind :=
  fun answer => ⟨(), own, rest answer⟩

theorem bind {f : α → Program I β} (first : p.AsksOnly kind) (rest : ∀ value, (f value).AsksOnly kind) :
    (p.bind f).AsksOnly kind :=
  Conforms.bind first fun _ value _ => rest value

theorem conforms {moves : Discipline I σ} {s : σ} (asks : p.AsksOnly kind)
    (stays : ∀ r, kind r → ∀ answer, moves s r answer s) : p.Conforms moves (fun s' _ => s' = s) s := by
  induction p with
  | done value => exact rfl
  | ask r next ih =>
    intro answer
    obtain ⟨_, own, rest⟩ := asks answer
    exact ⟨s, stays r own answer, ih answer rest⟩

end AsksOnly

end Program

/-- Whether a kind of effects includes what every read may ask for. -/
structure Effect.Covers (kind : Effect → Prop) : Prop where
  quiet : ∀ e, e.IsQuiet → kind e
  look : ∀ r, r.IsLook → kind (.cache r)
  drop : ∀ keys, kind (.cache (.delete keys))

namespace Accounts

open Program (AsksOnly)

variable {a : Accounts} {kind : effects.Request → Prop} {α β : Type}

theorem conforms_bind {σ : Type} {moves : Discipline effects σ} {s : σ} {middle : σ → Except Error α → Prop}
    {ends : σ → Except Error β → Prop} {p : Operation α} {f : α → Operation β} (first : p.run.Conforms moves middle s)
    (rest : ∀ s value, middle s (.ok value) → (f value).run.Conforms moves ends s)
    (broken : ∀ s e, middle s (.error e) → ends s (.error e)) : (p >>= f).run.Conforms moves ends s := by
  refine first.bind (f := ExceptT.bindCont f) fun s outcome holds => ?_
  cases outcome with
  | ok value => exact rest s value holds
  | error e => exact broken s e holds

theorem asks_andThen {p : Operation α} {f : α → Operation β} (first : AsksOnly kind p.run)
    (rest : ∀ value, AsksOnly kind (f value).run) : AsksOnly kind (p >>= f).run :=
  conforms_bind first (fun _ value _ => rest value) fun _ _ => id

theorem asks_lift {p : Action α} (asks : AsksOnly kind p) :
    AsksOnly kind (ExceptT.lift p : Operation α).run :=
  asks.bind fun _ => .done _

theorem asks_database {r : Database.Request} (asked : kind (.database r)) :
    AsksOnly kind (Operation.database r).run :=
  .ask asked fun _ => .done _

section

variable (covers : Effect.Covers kind)

include covers

theorem asks_warn (message : String) : AsksOnly kind (Action.warn message) :=
  .ask (covers.quiet (.warn message) trivial) fun _ => .done _

theorem asks_getOrLock (key : String) : AsksOnly kind (a.cache.getOrLock key) := by
  have stays : (a.cache.getOrLock key).Conforms (fun (_ : Unit) e _ _ => kind e) (fun s _ => s = ()) () :=
    a.cache.conforms_getOrLock_of_looks (fun _ e quiet _ => covers.quiet e quiet) fun r looks _ => covers.look r looks
  exact stays.mono fun _ _ _ => trivial

theorem asks_releaseLoad (lock : Option Cache.Lock) : AsksOnly kind (releaseLoad lock) := by
  cases lock with
  | none => exact .done _
  | some lock =>
    refine .ask (covers.look (.release lock) trivial) fun answer => ?_
    rcases answer with e | _ | _
    · exact asks_warn covers _
    · exact asks_warn covers _
    · exact .done _

theorem asks_invalidate (keys : List String) : AsksOnly kind (a.invalidate keys) := by
  rw [invalidate, Cache.Manager.delete]
  split
  · exact .done _
  · refine .ask (covers.drop keys) fun answer => ?_
    cases answer with
    | ok => exact .done _
    | error e => exact asks_warn covers _

section

variable [Storable α]

theorem asks_decode (key : String) (cached : Cache.Cached) :
    AsksOnly kind (a.decode key cached : Operation (Option α)).run := by
  cases cached with
  | absent => exact .done _
  | value bytes =>
    rw [decode]
    split
    · exact .done _
    · refine asks_andThen (asks_lift (asks_warn covers _)) fun _ => ?_
      exact asks_andThen (asks_lift (asks_invalidate covers _)) fun _ => .done _

theorem asks_lookup (key : String) : AsksOnly kind (a.lookup key : Operation (Lookup α)).run := by
  have found : AsksOnly kind (Operation.cache (a.cache.getOrLock key)).run :=
    (asks_getOrLock covers key).bind fun _ => .done _
  refine asks_andThen found fun outcome => ?_
  cases outcome with
  | hit cached => exact asks_andThen (asks_decode covers key cached) fun _ => .done _
  | owner | bypass => exact .done _

theorem asks_read (key : String) {load : Operation (Option α)} (loads : AsksOnly kind load.run) :
    AsksOnly kind (a.read key load).run := by
  refine asks_andThen (asks_lookup covers key) fun found => ?_
  cases found with
  | cached value => exact .done _
  | load lock =>
    exact asks_andThen (asks_lift loads) fun _ => asks_andThen (asks_lift (asks_releaseLoad covers lock)) fun _ =>
      .done _

omit covers in
theorem asks_store {item : Cache.Item} (own : kind (.cache (.set (a.cache.entry item)))) :
    AsksOnly kind (a.cache.store item) := by
  rw [Cache.Manager.store]
  split
  · exact .done _
  · exact .ask own fun _ => .done _

variable {key : String}

theorem asks_fillAbsent (mark : ∀ seconds, kind (.cache (.set ⟨key, Cache.nilBytes, seconds⟩))) :
    AsksOnly kind (a.fillAbsent key) := by
  have stored : AsksOnly kind (a.cache.storeAbsent key) := asks_store (mark _)
  refine stored.bind fun outcome => ?_
  cases outcome with
  | ok => exact .done _
  | error e => exact asks_warn covers _

variable (sets : ∀ e : Cache.Entry, e.key = key → kind (.cache (.set e)))

include sets

theorem asks_fill (value : α) : AsksOnly kind (a.fill key value) := by
  rw [fill]
  split
  · exact asks_warn covers _
  · next bytes _ =>
    have stored : AsksOnly kind (a.cache.store (.new key bytes)) := asks_store (sets _ rfl)
    refine stored.bind fun outcome => ?_
    cases outcome with
    | ok => exact .done _
    | error e => exact asks_warn covers _

theorem asks_fillFound (found : Option α) : AsksOnly kind (a.fillFound key found).run := by
  cases found with
  | none => exact asks_andThen (asks_lift (asks_fillAbsent covers fun _ => sets _ rfl)) fun _ => .done _
  | some value => exact asks_andThen (asks_lift (asks_fill covers sets value)) fun _ => .done _

end

theorem asks_findUser {id : Uuid} (asked : kind (.database (.findUser id)))
    (sets : ∀ e : Cache.Entry, e.key = Key.user id → kind (.cache (.set e))) :
    AsksOnly kind (a.findUser id).run :=
  asks_read covers _ (asks_andThen (asks_database asked) fun found => asks_fillFound covers sets found)

theorem asks_findUserId {address : String} (asked : kind (.database (.findUserByEmail address)))
    (sets : ∀ e : Cache.Entry, e.key = Key.email address → kind (.cache (.set e))) :
    AsksOnly kind (a.findUserId address).run :=
  asks_read covers _ (asks_andThen (asks_database asked) fun _ => asks_fillFound covers sets _)

theorem asks_findPassword {id : Uuid} (asked : kind (.database (.findPassword id)))
    (sets : ∀ e : Cache.Entry, e.key = Key.password id → kind (.cache (.set e))) :
    AsksOnly kind (a.findPassword id).run :=
  asks_read covers _ (asks_andThen (asks_database asked) fun _ => asks_fillFound covers sets _)

theorem asks_get (key : String) : AsksOnly kind (a.cache.get key) := by
  rw [Cache.Manager.get]
  split
  · exact .done _
  · refine .ask (covers.look (.get _) trivial) fun answer => ?_
    cases answer with
    | ok => exact .done _
    | error e => exact asks_warn covers _ |>.bind fun _ => .done _

theorem asks_checkToken (text : String) : AsksOnly kind (a.checkToken text) := by
  refine (asks_get covers _).bind fun found => ?_
  cases found with
  | none | some => exact .done _

section

variable {address : String}
  (own : ∀ r : Cache.Request, r.keys = [Key.loginAttempts address] → kind (.cache r))

include own

omit covers in
theorem asks_countLoginAttempt : AsksOnly kind (a.countLoginAttempt address).run := by
  have counted : AsksOnly kind (a.cache.increment (Key.loginAttempts address)) := by
    rw [Cache.Manager.increment]
    split
    · exact .done _
    · exact .ask (own _ rfl) fun _ => .done _
  have prolonged : AsksOnly kind (a.cache.expire (Key.loginAttempts address) a.login.lockTtl) := by
    rw [Cache.Manager.expire]
    split
    · exact .done _
    · refine .ask (own _ rfl) fun answer => ?_
      cases answer with
      | ok | error => exact .done _
  refine asks_andThen (p := Operation.cache _) (counted.bind fun _ => .done _) fun _ => ?_
  exact asks_andThen (p := Operation.cache _) (prolonged.bind fun _ => .done _) fun _ => .done _

theorem asks_isLoginLocked : AsksOnly kind (a.isLoginLocked address).run := by
  have asked : AsksOnly kind (a.cache.lifetime (Key.loginAttempts address)) := by
    rw [Cache.Manager.lifetime]
    split
    · exact .done _
    · refine .ask (own _ rfl) fun answer => ?_
      cases answer with
      | ok | error => exact .done _
  refine asks_andThen (p := Operation.cache _) (asked.bind fun _ => .done _) fun lifetime => ?_
  split
  · refine asks_andThen (asks_lift (asks_get covers _)) fun found => ?_
    split
    · exact .done _
    · exact .done _
  · exact .done _

end

section

variable (reads : ∀ r : Database.Request, r.isRead = true → kind (.database r))
  (sets : ∀ e, kind (.cache (.set e)))

include reads sets

theorem asks_findUserByEmail (address : String) : AsksOnly kind (a.findUserByEmail address).run := by
  refine asks_andThen (asks_findUserId covers (reads _ rfl) fun e _ => sets e) fun found => ?_
  cases found with
  | some id => exact asks_findUser covers (reads _ rfl) fun e _ => sets e
  | none => exact .done _

theorem asks_loadPermission : AsksOnly kind a.loadPermission.run := by
  have fills : ∀ p, AsksOnly kind (a.fillPermission p) := by
    intro p
    have stored : AsksOnly kind (a.cache.store ⟨Key.permission, .ofText p.toJson.text, permissionTtl⟩) :=
      asks_store (sets _)
    refine stored.bind fun outcome => ?_
    cases outcome with
    | ok => exact .done _
    | error e => exact asks_warn covers _
  refine asks_andThen (asks_read covers _ ?_) fun _ => .done _
  exact asks_andThen (asks_database (reads _ rfl)) fun _ => asks_andThen (asks_lift (fills _)) fun _ => .done _

end

end

end Accounts

end AccountCache
