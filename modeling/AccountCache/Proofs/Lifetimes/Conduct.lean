import AccountCache.Proofs.Refreshing.Requests
import AccountCache.Proofs.Sequential.Reach

namespace AccountCache

open Cache (nilBytes)

/-- Whether a request caches nothing under a token but the mark for a
missing row. -/
inductive Cache.Request.SparesTokens : Cache.Request → Prop
  | look {r} : r.IsLook → SparesTokens r
  | drop {keys} : SparesTokens (.delete keys)
  | mark {key seconds} : SparesTokens (.set ⟨key, nilBytes, seconds⟩)
  | away {r} : (∀ text, Key.token text ∉ r.keys) → SparesTokens r

def Effect.SparesTokens : Effect → Prop
  | .cache r => r.SparesTokens
  | _ => True

theorem Effect.covers_sparesTokens : Effect.Covers Effect.SparesTokens where
  quiet e quiet := by
    cases e with
    | cache | database => cases quiet
    | _ => trivial
  look _ looks := .look looks
  drop _ := .drop

namespace Accounts

open Program (AsksOnly)

/-- How an operation goes on that has got some readings of the wall
clock: under a token it caches nothing but the mark for a missing
row, and sessions, each for the life that its token had left at one
of the readings. -/
inductive Timekeeping (a : Accounts) : Discipline effects (List Timestamp)
  | read {readings now} : Timekeeping a readings .wallClock now (now :: readings)
  | cache {readings s bytes now later answer} : Storable.encode? s = some bytes → now ∈ readings → later ∈ readings →
    Timekeeping a readings (.cache (.setMany ((sessionItems s bytes now later).map a.cache.entry))) answer readings
  | spare {readings e answer} : e.SparesTokens → Timekeeping a readings e answer readings

def Keeps (a : Accounts) {α : Type} (p : Action α) : Prop :=
  ∀ readings, p.Conforms (Timekeeping a) (fun _ _ => True) readings

variable {a : Accounts} {α β : Type}

theorem sparesTokens_of_key {e : Cache.Entry} {d : Datum} (own : e.key = d.key) (other : ∀ text, d ≠ .token text) :
    Effect.SparesTokens (.cache (.set e)) := by
  refine .away fun text named => other text (Datum.key_injective ?_)
  rw [← own]
  exact (List.mem_singleton.1 named).symm

namespace Keeps

theorem done (value : α) : Keeps a (.done value) := fun _ => trivial

theorem of_asks {p : Action α} (asks : AsksOnly Effect.SparesTokens p) : Keeps a p := fun _ =>
  (asks.conforms fun _ spares _ => .spare spares).mono fun _ _ _ => trivial

theorem bind {p : Action α} {f : α → Action β} (first : Keeps a p) (rest : ∀ value, Keeps a (f value)) :
    Keeps a (p.bind f) :=
  fun readings => (first readings).bind fun readings value _ => rest value readings

theorem andThen {p : Operation α} {f : α → Operation β} (first : Keeps a p.run)
    (rest : ∀ value, Keeps a (f value).run) : Keeps a (p >>= f).run := fun readings =>
  conforms_bind (first readings) (fun readings value _ => rest value readings) fun _ _ => id

theorem lift {p : Action α} (keeps : Keeps a p) : Keeps a (ExceptT.lift p : Operation α).run :=
  keeps.bind fun _ => done _

theorem database (r : Database.Request) : Keeps a (Operation.database r).run :=
  of_asks (asks_database trivial)

theorem invalidate (keys : List String) : Keeps a (ExceptT.lift (a.invalidate keys) : Operation Unit).run :=
  of_asks (asks_lift (asks_invalidate Effect.covers_sparesTokens keys))

theorem warn (message : String) : Keeps a (Action.warn message) :=
  of_asks (asks_warn Effect.covers_sparesTokens message)

theorem findUser (id : Uuid) : Keeps a (a.findUser id).run :=
  of_asks (asks_findUser Effect.covers_sparesTokens trivial fun _ own =>
    sparesTokens_of_key (d := .user id) own fun _ => nofun)

/-- A session is cached for as long as its tokens live after the wall
clock was read. -/
theorem cacheSession (s : Session) : Keeps a (a.cacheSession s) := by
  cases encoded : Storable.encode? s with
  | none =>
    unfold Accounts.cacheSession
    rw [encoded]
    exact warn _
  | some bytes =>
    rw [cacheSession_eq a encoded]
    refine fun readings now => ⟨_, .read, fun later => ⟨_, .read, ?_⟩⟩
    show (a.cacheItems (sessionItems s bytes now later)).Conforms _ _ _
    rw [cacheItems, Cache.Manager.storeMany]
    split
    · trivial
    · have first : now ∈ later :: now :: readings := List.mem_cons_of_mem _ (List.mem_cons_self ..)
      refine fun outcome => ⟨_, .cache encoded first (List.mem_cons_self ..), ?_⟩
      cases outcome with
      | ok => trivial
      | error e => exact warn _ _

theorem completeSession (key : String) (found : Option Session) : Keeps a (a.completeSession key found).run := by
  cases found with
  | none =>
    refine of_asks (asks_andThen (asks_lift (asks_fillAbsent Effect.covers_sparesTokens fun _ => ?_)) fun _ => .done _)
    exact .mark
  | some s =>
    refine (findUser s.userId).andThen fun owner => ?_
    cases owner with
    | none => exact (warn _).lift.andThen fun _ => done _
    | some user => exact (cacheSession _).lift.andThen fun _ => done _

theorem read [Storable α] (key : String) {load : Operation (Option α)} (loads : Keeps a load.run) :
    Keeps a (a.read key load).run := by
  refine andThen (of_asks (asks_lookup Effect.covers_sparesTokens key)) fun found => ?_
  cases found with
  | cached value => exact done _
  | load lock =>
    refine loads.lift.andThen fun outcome => ?_
    exact andThen (of_asks (asks_lift (asks_releaseLoad Effect.covers_sparesTokens lock))) fun _ => done _

theorem findSession (id : Int) : Keeps a (a.findSession id).run :=
  read _ ((database (.findSession id)).andThen fun found => completeSession _ found)

end Keeps

theorem Command.keeps (command : Command) : Keeps a (command.perform a) := by
  have counts : ∀ address, ∀ r : Cache.Request, r.keys = [Key.loginAttempts address] →
      Effect.SparesTokens (.cache r) := fun address r own => .away fun text named => by
    rw [own, List.mem_singleton] at named
    exact Datum.key_ne_loginAttempts (.token text) address named
  cases command with
  | createUser user hash =>
    exact ((Keeps.database (.createUser user hash)).andThen fun _ => .invalidate _).bind fun _ => .done _
  | updateUser user =>
    refine ((Keeps.database (.updateUser user)).andThen fun found => ?_).bind fun _ => .done _
    cases found with
    | none => exact .done _
    | some row => exact (Keeps.invalidate _).andThen fun _ => .findUser row.id
  | deleteUser id =>
    exact ((Keeps.database (.deleteUser id)).andThen fun _ => (Keeps.invalidate _).andThen fun _ => .done _).bind
      fun _ => .done _
  | updatePassword id hash =>
    exact ((Keeps.database (.updatePassword id hash)).andThen fun _ => .invalidate _).bind fun _ => .done _
  | findUser id => exact (Keeps.findUser id).bind fun _ => .done _
  | findUserByEmail address =>
    refine (Keeps.andThen (.of_asks (asks_findUserId Effect.covers_sparesTokens trivial fun _ own => ?_))
      fun found => ?_).bind fun _ => .done _
    · exact sparesTokens_of_key (d := .email address) own fun _ => nofun
    · cases found with
      | none => exact .done _
      | some id => exact .findUser id
  | findPassword id =>
    refine (Keeps.of_asks (asks_findPassword Effect.covers_sparesTokens trivial fun _ own => ?_)).bind fun _ => .done _
    exact sparesTokens_of_key (d := .password id) own fun _ => nofun
  | countLoginAttempt address => exact (Keeps.of_asks (asks_countLoginAttempt (counts address))).bind fun _ => .done _
  | isLoginLocked address =>
    exact (Keeps.of_asks (asks_isLoginLocked Effect.covers_sparesTokens (counts address))).bind fun _ => .done _
  | createSession s =>
    refine ((Keeps.database (.createSession s)).andThen fun created => ?_).bind fun _ => .done _
    exact (Keeps.cacheSession created).lift.andThen fun _ => .done _
  | refreshSession old tokens =>
    refine ((Keeps.database (.updateTokens old.id tokens)).andThen fun _ => ?_).bind fun _ => .done _
    exact (Keeps.invalidate _).andThen fun _ => .findSession old.id
  | deleteSession s =>
    exact ((Keeps.database (.deleteSession s.id)).andThen fun _ => .invalidate _).bind fun _ => .done _
  | findSessionByToken type text =>
    refine (Keeps.read _ ((Keeps.database (.findSessionByToken type text)).andThen fun found => ?_)).bind
      fun _ => .done _
    exact .completeSession _ found
  | findSession id => exact (Keeps.findSession id).bind fun _ => .done _
  | checkToken text => exact (Keeps.of_asks (asks_checkToken Effect.covers_sparesTokens text)).bind fun _ => .done _

end Accounts

end AccountCache
