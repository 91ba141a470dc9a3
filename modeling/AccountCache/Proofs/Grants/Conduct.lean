import AccountCache.Proofs.Locking.Leaks
import AccountCache.Proofs.ReadBack.Snapshots
import AccountCache.Proofs.Requests.Customs

namespace AccountCache

/-- What a snapshot is cached as. Different snapshots have
different bytes. -/
def Permission.bytes (p : Permission) : Bytes := .ofText p.toJson.text

def Cache.Request.SparesSnapshot (r : Cache.Request) : Prop :=
  r.IsLook ∨ (∃ keys, r = .delete keys) ∨ Key.permission ∉ r.keys

/-- Whether an effect makes no grant and caches no snapshot. -/
def Effect.SparesSnapshot : Effect → Prop
  | .cache r => r.SparesSnapshot
  | .database r => ∀ g, r ≠ .createGrant g
  | _ => True

namespace Accounts

open Cache (Cached nilBytes)
open Program (Conforms)

/-- What is known between two requests: whether a snapshot that is cached is
right, and some snapshot that is right. -/
structure View where
  fresh : Prop
  known : Option Permission

def snapshot? (bytes : Bytes) : Option Permission :=
  if bytes = nilBytes then some .empty else Storable.decode? bytes

/-- How operations go on that know something of the grants: whoever makes a
grant drops the snapshot, whoever caches one has just read the grants, and
all others leave it alone. -/
inductive Granting (a : Accounts) : Discipline effects View
  | hit {v : View} (bytes) : v.fresh →
    Granting a v (.cache (.get Key.permission)) (.ok (some bytes)) ⟨v.fresh, snapshot? bytes⟩
  | read {v : View} (grants) : Granting a v (.database .findGrants) (.ok grants) ⟨v.fresh, some (.ofGrants grants)⟩
  | write {v : View} {p : Permission} {seconds answer} : v.known = some p → a.cache.policy.disabled = false →
    seconds ≠ 0 → Granting a v (.cache (.set ⟨Key.permission, p.bytes, seconds⟩)) answer v
  /-- Where the cache is switched off nothing is cached. -/
  | change {v : View} {g} :
    Granting a v (.database (.createGrant g)) (.ok ()) ⟨a.cache.policy.disabled = true, none⟩
  | refuse {v : View} {g e} : Granting a v (.database (.createGrant g)) (.error e) v
  | drop {v : View} {keys} : Key.permission ∈ keys →
    Granting a v (.cache (.delete keys)) (.ok ()) ⟨True, v.known⟩
  | fail {v v' : View} {r e} : r.isIncrement = false → Granting a v (.cache r) (.error e) v'
  | aside {v : View} {e answer} : e.SparesSnapshot → Granting a v e answer v

variable {a : Accounts} {v : View} {α β : Type}

theorem Granting.patient : (Granting a).Patient := fun _ e quiet _ => .aside <| by
  cases e with
  | cache | database => cases quiet
  | _ => trivial

/-- Operations that are not about grants leave the snapshot alone. -/
theorem customs_sparesSnapshot (a : Accounts) : a.Customs (fun _ => True) Effect.SparesSnapshot where
  quiet e quiet _ := by
    cases e with
    | cache | database => cases quiet
    | _ => trivial
  wait _ _ _ := trivial
  get _ := .inl trivial
  isHeld _ := .inl trivial
  acquire _ := .inl trivial
  release _ := .inl trivial
  query _ notGrant := notGrant
  delete _ := .inr (.inl ⟨_, rfl⟩)
  fill d bytes _ other := .inr (.inr fun named =>
    other (Datum.key_injective (b := .permission) (List.mem_singleton.1 named).symm))
  mark d _ other := .inr (.inr fun named =>
    other (Datum.key_injective (b := .permission) (List.mem_singleton.1 named).symm))
  sessions s bytes now later _ _ _ _ := by
    refine .inr (.inr fun named => ?_)
    rw [Cache.Request.keys, List.map_map] at named
    obtain ⟨item, member, own⟩ := List.mem_map.1 named
    obtain ⟨d, data, key, _⟩ := mem_sessionItems member
    obtain rfl : d = .permission := Datum.key_injective (key.symm.trans own)
    simp [Session.data] at data
  lifetime address := .inr (.inr fun named =>
    Datum.permission.key_ne_loginAttempts address (List.mem_singleton.1 named))

theorem counting_sparesSnapshot (a : Accounts) : a.Counting Effect.SparesSnapshot where
  count address := .inr (.inr fun named =>
    Datum.permission.key_ne_loginAttempts address (List.mem_singleton.1 named))
  prolong address _ := .inr (.inr fun named =>
    Datum.permission.key_ne_loginAttempts address (List.mem_singleton.1 named))

theorem conforms_of_spares {p : Action α} (minds : p.Minds (fun _ => True) Effect.SparesSnapshot) :
    p.Conforms (Granting a) (fun v' _ => v' = v) v :=
  minds.conforms fun _ spares _ => .aside spares

theorem conforms_warn (message : String) : (Action.warn message).Conforms (Granting a) (fun v' _ => v' = v) v :=
  conforms_of_spares (.ask trivial fun _ => .done _)

theorem conforms_liftThen {middle : View → α → Prop} {ends : View → Except Error β → Prop} {p : Action α}
    {f : α → Operation β} (first : p.Conforms (Granting a) middle v)
    (rest : ∀ v value, middle v value → (f value).run.Conforms (Granting a) ends v) :
    (ExceptT.lift p >>= f).run.Conforms (Granting a) ends v := by
  rw [ExceptT.run_bind_lift]
  exact first.bind rest

/-- Whether what a look at the cache found is what is known, and whatever is
cached is right. -/
def Hits (v : View) (found : Option Cached) : Prop :=
  v.fresh ∧ ∀ value, found = some value → ∃ bytes, value = .ofBytes bytes ∧ v.known = snapshot? bytes

def hit? : Except Cache.Error Cache.Lookup → Option Cached
  | .ok (.hit value) => some value
  | _ => none

theorem Hits.none (fresh : v.fresh) : Hits v none := ⟨fresh, fun _ => nofun⟩

theorem conforms_checkCache (fresh : v.fresh) :
    (Cache.Manager.checkCache Key.permission).Conforms (Granting a) Hits v := by
  refine Cache.Manager.conforms_checkCache Granting.patient (fun found => ?_) fun e => ⟨v, .fail rfl, .none fresh⟩
  cases found with
  | none => exact ⟨v, .aside (.inl trivial), .none fresh⟩
  | some bytes =>
    refine ⟨_, .hit bytes fresh, fresh, ?_⟩
    rintro _ ⟨⟩
    exact ⟨bytes, rfl, rfl⟩

theorem conforms_poll (fresh : v.fresh) : (a.cache.poll Key.permission).Conforms (Granting a)
    (fun v' found => found.elim v'.fresh fun found => Hits v' (hit? (.ok found))) v := by
  have looks : ∀ r : Cache.Request, r.IsLook → ∀ answer, Granting a v (.cache r) answer v :=
    fun r looks answer => .aside (.inl looks)
  have probe : (Cache.Manager.isLocked Key.permission).Conforms (Granting a) (fun v' _ => v' = v) v :=
    Cache.Manager.conforms_isLocked Granting.patient (fun _ => ⟨v, looks (.isHeld _) trivial _, rfl⟩)
      fun _ => ⟨v, looks (.isHeld _) trivial _, rfl⟩
  refine probe.bind ?_
  rintro _ held rfl
  cases held with
  | true => exact fresh
  | false =>
    refine (conforms_checkCache fresh).bind fun v' found hits => ?_
    cases found with
    | some value => exact hits
    | none =>
      refine (a.cache.conforms_tryLock_of_looks Granting.patient fun r looks answer => .aside (.inl looks)).bind ?_
      rintro _ outcome rfl
      cases outcome with
      | acquired | unavailable => exact .none hits.1
      | contended => exact hits.1

theorem conforms_getOrLock (fresh : v.fresh) : (a.cache.getOrLock Key.permission).Conforms (Granting a)
    (fun v' outcome => Hits v' (hit? outcome)) v := by
  rw [Cache.Manager.getOrLock]
  split
  · exact .none fresh
  · refine (conforms_checkCache fresh).bind fun v' found hits => ?_
    cases found with
    | some value => exact hits
    | none =>
      refine (a.cache.conforms_tryLock_of_looks Granting.patient fun r looks answer => .aside (.inl looks)).bind ?_
      rintro _ outcome rfl
      cases outcome with
      | acquired | unavailable => exact .none hits.1
      | contended =>
        exact a.cache.conforms_wait Granting.patient (fun v => v.fresh) (fun _ fresh => conforms_poll fresh)
          (fun _ fresh _ => .none fresh) hits.1

/-- Whether a read ended while whatever is cached is right, and with what is
known if it yielded a value. -/
def Tells (v : View) (outcome : Except Error (Option Permission)) : Prop :=
  v.fresh ∧ ∀ found, outcome = .ok found → v.known = some (found.getD .empty)

theorem conforms_decode {bytes : Bytes} (fresh : v.fresh) (known : v.known = snapshot? bytes) :
    (a.decode Key.permission (.ofBytes bytes) : Operation (Option Permission)).run.Conforms (Granting a) Tells v := by
  by_cases mark : bytes = nilBytes
  · subst mark
    refine ⟨fresh, ?_⟩
    rintro _ ⟨⟩
    exact known
  · rw [snapshot?, if_neg mark] at known
    rw [Cached.ofBytes, if_neg mark, decode]
    split
    · next p decoded =>
      refine ⟨fresh, ?_⟩
      rintro _ ⟨⟩
      exact known.trans decoded
    · have dropped : (a.invalidate [Key.permission]).Minds (fun _ => True) Effect.SparesSnapshot :=
        minds_invalidate (customs_sparesSnapshot a).toCustoms (.inr (.inl ⟨_, rfl⟩))
      refine conforms_liftThen (conforms_warn _) ?_
      rintro _ _ rfl
      refine conforms_liftThen (conforms_of_spares dropped) ?_
      rintro _ _ rfl
      exact ⟨fresh, fun _ told => by cases told⟩

/-- Reading tells what is known if loading does. -/
theorem conforms_read {load : Operation (Option Permission)}
    (loads : ∀ v : View, v.fresh → load.run.Conforms (Granting a) Tells v) (fresh : v.fresh) :
    (a.read Key.permission load).run.Conforms (Granting a) Tells v := by
  have looked : (a.lookup Key.permission : Operation (Lookup Permission)).run.Conforms (Granting a)
      (fun v' outcome => v'.fresh ∧ ∀ found, outcome = .ok (.cached found) → Tells v' (.ok found)) v := by
    have found : (Operation.cache (a.cache.getOrLock Key.permission)).run.Conforms (Granting a)
        (fun v' outcome => v'.fresh ∧ ∀ value, outcome = .ok (.hit value) →
          ∃ bytes, value = .ofBytes bytes ∧ v'.known = snapshot? bytes) v := by
      refine (conforms_getOrLock fresh).bind fun v' outcome hits => ⟨hits.1, ?_⟩
      rintro value same
      cases outcome with
      | error e => cases same
      | ok found =>
        cases found with
        | hit value' =>
          cases same
          exact hits.2 value rfl
        | owner | bypass => cases same
    refine conforms_bind found ?_ fun v' e holds => ⟨holds.1, fun _ => nofun⟩
    rintro v' found ⟨fresh, hits⟩
    cases found with
    | hit value =>
      obtain ⟨bytes, rfl, known⟩ := hits value rfl
      refine conforms_bind (conforms_decode fresh known) ?_ fun v' e tells => ⟨tells.1, fun _ => nofun⟩
      rintro v' value tells
      refine ⟨tells.1, ?_⟩
      rintro _ ⟨⟩
      exact tells
    | owner | bypass => exact ⟨fresh, fun _ => nofun⟩
  refine conforms_bind looked ?_ fun v' e holds => ⟨holds.1, fun _ => nofun⟩
  rintro v' found ⟨fresh, tells⟩
  cases found with
  | cached value => exact tells value rfl
  | load lock =>
    have freed : (releaseLoad lock).Minds (fun _ => True) Effect.SparesSnapshot :=
      minds_releaseLoad (customs_sparesSnapshot a).toCustoms lock
    refine conforms_liftThen (loads v' fresh) fun v' outcome tells => ?_
    refine conforms_liftThen (conforms_of_spares freed) ?_
    rintro _ _ rfl
    exact tells

theorem conforms_fillPermission {p : Permission} (known : v.known = some p) :
    (a.fillPermission p).Conforms (Granting a) (fun v' _ => v' = v) v := by
  rw [fillPermission, Cache.Manager.store]
  split
  · exact rfl
  · next enabled =>
    refine fun answer => ⟨v, .write known (Bool.eq_false_iff.2 enabled) (a.cache.seconds_ne_zero _), ?_⟩
    cases answer with
    | ok => exact rfl
    | error e => exact conforms_warn _

theorem conforms_loadPermission (fresh : v.fresh) : a.loadPermission.run.Conforms (Granting a)
    (fun v' outcome => v'.fresh ∧ ∀ p, outcome = .ok p → v'.known = some p) v := by
  refine conforms_bind (conforms_read (fun v fresh => ?_) fresh) (fun v' found tells => ?_)
    fun v' e tells => ⟨tells.1, fun _ => nofun⟩
  · intro answer
    cases answer with
    | error e => exact ⟨v, .aside fun _ => nofun, fresh, fun _ => nofun⟩
    | ok grants =>
      refine ⟨_, .read grants, conforms_liftThen (conforms_fillPermission rfl) ?_⟩
      rintro _ _ rfl
      refine ⟨fresh, ?_⟩
      rintro _ ⟨⟩
      rfl
  · refine ⟨tells.1, ?_⟩
    rintro _ ⟨⟩
    exact tells.2 found rfl

/-- Whoever makes a grant drops the snapshot afterwards. -/
theorem conforms_createGrant (g : Grant) (fresh : v.fresh) :
    (a.createGrant g).run.Conforms (Granting a) (fun v' _ => v'.fresh) v := by
  intro answer
  cases answer with
  | error e => exact ⟨v, .refuse, fresh⟩
  | ok =>
    refine ⟨_, .change, ?_⟩
    have dropped : (a.invalidate [Key.permission]).Conforms (Granting a) (fun v' _ => v'.fresh)
        ⟨a.cache.policy.disabled = true, none⟩ := by
      rw [invalidate, Cache.Manager.delete]
      by_cases disabled : a.cache.policy.disabled = true
      · rw [if_pos (by rw [disabled]; rfl)]
        exact disabled
      · rw [if_neg (by simp [disabled])]
        intro outcome
        cases outcome with
        | ok => exact ⟨_, .drop (List.mem_singleton_self _), trivial⟩
        | error e =>
          refine ⟨⟨True, none⟩, .fail rfl, (conforms_warn _).mono ?_⟩
          rintro _ _ rfl
          exact trivial
    exact dropped.bind fun _ _ fresh => fresh

/-- After each operation whatever is cached is right. -/
theorem Service.conforms_errand (service : Service α) (fresh : v.fresh) :
    (service.errand a).Conforms (Granting a) (fun v' _ => v'.fresh) v := by
  refine Conforms.bind ?_ fun _ _ fresh => fresh
  by_cases about : service.IsAboutGrants
  · cases service with
    | job j =>
      cases j with
      | createGrant g => exact conforms_createGrant g fresh
      | loadPermission => exact (conforms_loadPermission fresh).mono fun _ _ holds => holds.1
      | _ => cases about
    | countLoginAttempt | isLoginLocked => cases about
  · refine (conforms_of_spares (service.minds (customs_sparesSnapshot a) (counting_sparesSnapshot a) about)).mono ?_
    rintro _ _ rfl
    exact fresh

theorem conforms_performAll (services : List (Σ α : Type, Service α)) (fresh : v.fresh) :
    (performAll a services).Conforms (Granting a) (fun v' _ => v'.fresh) v := by
  induction services generalizing v with
  | nil => exact fresh
  | cons service rest ih =>
    exact (service.2.conforms_errand fresh).bind fun _ _ fresh => (ih fresh).bind fun _ _ fresh => fresh

end Accounts

end AccountCache
