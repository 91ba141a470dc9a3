import AccountCache.Proofs.Faults.Services

namespace AccountCache

open Program (AsksOnly Course)

/-- A database of whatever kind: to a request in some state it has
an answer, and comes to a state. It may refuse what it likes. This
is the yardstick: with no help from the cache nothing else
determines an outcome. -/
abbrev Database.Machine (σ : Type) := σ → (r : Database.Request) → Except Database.Error r.Result × σ

namespace Accounts

/-- An operation on a database with nothing beside it. -/
abbrev Direct (σ α : Type) := ExceptT Error (StateM σ) α

section

variable {σ α : Type} (db : Database.Machine σ)

namespace Direct

def ask (r : Database.Request) : Direct σ r.Result :=
  ExceptT.mk fun s => ((db s r).1.mapError Error.database, (db s r).2)

def findUserByEmail (address : String) : Direct σ (Option User) := do
  match ← ask db (.findUserByEmail address) with
  | some found => ask db (.findUser found.id)
  | none => return none

/-- A session counts if its owner is there, and has the role that the
owner has now. -/
def withOwner : Option Session → Direct σ (Option Session)
  | some s => do
    let owner ← ask db (.findUser s.userId)
    return owner.map fun user => { s with role := user.role }
  | none => return none

def findSession (id : Int) : Direct σ (Option Session) := do
  withOwner db (← ask db (.findSession id))

end Direct

open Direct (ask)

/-- What the database alone makes of an operation. A token is in no cache,
so none is known. -/
def Job.direct : Job α → Direct σ α
  | createUser user hash => ask db (.createUser user hash)
  | updateUser user => do
    match ← ask db (.updateUser user) with
    | some row => ask db (.findUser row.id)
    | none => return none
  | deleteUser id => ask db (.deleteUser id)
  | updatePassword id hash => ask db (.updatePassword id hash)
  | findUser id => ask db (.findUser id)
  | findUserByEmail address => Direct.findUserByEmail db address
  | findPassword id => ask db (.findPassword id)
  | createSession s => ask db (.createSession s)
  | refreshSession old tokens => do
    ask db (.updateTokens old.id tokens)
    Direct.findSession db old.id
  | deleteSession s => ask db (.deleteSession s.id)
  | findSessionByToken type text => do
    Direct.withOwner db (← ask db (.findSessionByToken type text))
  | findSession id => Direct.findSession db id
  | checkToken _ => return false
  | createGrant g => ask db (.createGrant g)
  | loadPermission => return .ofGrants (← ask db .findGrants)

/-- No failed login is remembered, so none counts. -/
def Service.direct : Service α → Direct σ α
  | job j => j.direct db
  | countLoginAttempt _ => return 0
  | isLoginLocked _ => return false

/-- Whether a program, over a database in some state, comes to a result if
each request to the cache fails, and asks for nothing that takes waiting. If
the cache is switched off nothing may be asked of it. -/
def ComesTo (enabled : Prop) (result : α × σ) : Action α → σ → Prop
  | .done value, s => (value, s) = result
  | .ask (.database r) next, s => ComesTo enabled result (next (db s r).1) (db s r).2
  | .ask (.cache _) next, s => enabled ∧ ∀ e, ComesTo enabled result (next (.error e)) s
  | .ask .wallClock next, s => ∀ now, ComesTo enabled result (next now) s
  | .ask (.warn _) next, s => ComesTo enabled result (next ()) s
  | .ask _ _, _ => False

end

variable {σ α β : Type} {db : Database.Machine σ} {enabled : Prop} {s s' : σ} {a : Accounts}

theorem ComesTo.bind {p : Action α} {f : α → Action β} {value : α} {result : β × σ}
    (first : ComesTo db enabled (value, s') p s) (rest : ComesTo db enabled result (f value) s') :
    ComesTo db enabled result (p.bind f) s := by
  induction p generalizing s with
  | done ended =>
    obtain ⟨rfl, rfl⟩ := Prod.mk.inj first
    exact rest
  | ask e next ih =>
    cases e with
    | database r => exact ih _ first
    | cache r => exact ⟨first.1, fun e => ih _ (first.2 e)⟩
    | wallClock => exact fun now => ih now (first now)
    | warn message => exact ih () first
    | clock | draw | sleep | overflow => exact first.elim

/-- Whether an operation that the cache does not help comes to what the
database alone makes of it. -/
def Mirrors (db : Database.Machine σ) (a : Accounts) (p : Operation α) (d : Direct σ α) : Prop :=
  ∀ s, ComesTo db (a.cache.policy.disabled = false) (d.run s) p.run s

def Idles (db : Database.Machine σ) (a : Accounts) (p : Action Unit) : Prop :=
  ∀ s, ComesTo db (a.cache.policy.disabled = false) ((), s) p s

namespace Mirrors

variable {p : Operation α} {d : Direct σ α} {f : α → Operation β} {g : α → Direct σ β}

theorem pure (value : α) : Mirrors db a (pure value) (pure value) := fun _ => rfl

theorem ask (r : Database.Request) : Mirrors db a (Operation.database r) (Direct.ask db r) := fun _ => rfl

theorem bind (first : Mirrors db a p d) (rest : ∀ value, Mirrors db a (f value) (g value)) :
    Mirrors db a (p >>= f) (d >>= g) := by
  intro s
  have before := first s
  have split : (d >>= g).run s = ExceptT.bindCont g (d.run s).1 (d.run s).2 := rfl
  rw [split]
  cases came : d.run s with
  | mk outcome s' =>
    rw [came] at before
    refine ComesTo.bind (f := ExceptT.bindCont f) before ?_
    cases outcome with
    | ok value => exact rest value s'
    | error e => rfl

theorem passing (first : Mirrors db a p d) {f : α → Operation α}
    (rest : ∀ value, Mirrors db a (f value) (Pure.pure value)) : Mirrors db a (p >>= f) d := by
  have both := first.bind rest
  rwa [bind_pure] at both

theorem beside {p : Action Unit} {f : Unit → Operation β} {d : Direct σ β} (idles : Idles db a p)
    (rest : Mirrors db a (f ()) d) : Mirrors db a (ExceptT.lift p >>= f) d := by
  intro s
  have lifted : ComesTo db (a.cache.policy.disabled = false) (.ok (), s) (ExceptT.lift p : Operation Unit).run s :=
    (idles s).bind rfl
  exact lifted.bind (f := ExceptT.bindCont f) (rest s)

end Mirrors

theorem Mirrors.idle {p : Action Unit} (idles : Idles db a p) : Mirrors db a (ExceptT.lift p) (Pure.pure ()) :=
  fun s => (idles s).bind rfl

theorem idles_invalidate (keys : List String) : Idles db a (a.invalidate keys) := by
  intro s
  rw [invalidate, Cache.Manager.delete]
  split
  · rfl
  · next asked =>
    exact ⟨(Bool.or_eq_false_iff.1 (Bool.eq_false_iff.2 asked)).1, fun _ => rfl⟩

/-- What comes after an attempt to store something does not matter as long
as it only warns. -/
theorem idles_store (item : Cache.Item) {f : Except Cache.Error Unit → Action Unit}
    (rest : ∀ outcome, Idles db a (f outcome)) : Idles db a ((a.cache.store item).bind f) := by
  intro s
  rw [Cache.Manager.store]
  split
  · exact rest _ s
  · next asked =>
    have enabled : a.cache.policy.disabled = false := Bool.eq_false_iff.2 asked
    exact ⟨enabled, fun e => rest (.error e) s⟩

theorem idles_fillAbsent (key : String) : Idles db a (a.fillAbsent key) := by
  refine idles_store _ fun outcome s => ?_
  cases outcome with
  | ok => rfl
  | error e => rfl

theorem idles_fill [Storable α] (key : String) (value : α) : Idles db a (a.fill key value) := by
  rw [fill]
  cases Storable.encode? value with
  | none => exact fun _ => rfl
  | some bytes =>
    refine idles_store _ fun outcome s => ?_
    cases outcome with
    | ok => rfl
    | error e => rfl

theorem idles_cacheSession (row : Session) : Idles db a (a.cacheSession row) := by
  intro s
  cases encoded : Storable.encode? row with
  | none =>
    unfold cacheSession
    rw [encoded]
    rfl
  | some bytes =>
    rw [cacheSession_eq a encoded]
    intro now later
    show ComesTo db _ ((), s) (a.cacheItems (sessionItems row bytes now later)) s
    rw [cacheItems, Cache.Manager.storeMany]
    split
    · rfl
    · next asked =>
      exact ⟨(Bool.or_eq_false_iff.1 (Bool.eq_false_iff.2 asked)).1, fun _ => rfl⟩

namespace Mirrors

theorem fillFound [Storable α] (key : String) (found : Option α) :
    Mirrors db a (a.fillFound key found) (Pure.pure found) := by
  cases found with
  | some value => exact beside (idles_fill key value) (pure _)
  | none => exact beside (idles_fillAbsent key) (pure _)

/-- A lookup finds nothing, and no lock. -/
theorem lookup [Storable α] (key : String) :
    Mirrors db a (a.lookup key : Operation (Lookup α)) (Pure.pure (.load none)) := by
  intro s
  have bypassed : ComesTo db (a.cache.policy.disabled = false) (.ok .bypass, s) (a.cache.getOrLock key) s := by
    rw [Cache.Manager.getOrLock]
    split
    · rfl
    · next asked =>
      have enabled : a.cache.policy.disabled = false := Bool.eq_false_iff.2 asked
      exact ⟨enabled, fun _ => ⟨enabled, fun _ => rfl⟩⟩
  have found : ComesTo db (a.cache.policy.disabled = false) (.ok .bypass, s)
      (Operation.cache (a.cache.getOrLock key)).run s := bypassed.bind rfl
  exact found.bind (f := ExceptT.bindCont _) rfl

theorem read [Storable α] (key : String) {load : Operation (Option α)} {d : Direct σ (Option α)}
    (loads : Mirrors db a load d) : Mirrors db a (a.read key load) d := by
  intro s
  have lifted : ComesTo db (a.cache.policy.disabled = false) (.ok (d.run s).1, (d.run s).2)
      (ExceptT.lift load.run : Operation _).run s := (loads s).bind rfl
  exact (lookup key s).bind (f := ExceptT.bindCont _) (lifted.bind (f := ExceptT.bindCont _) rfl)

theorem findUser (id : Uuid) : Mirrors db a (a.findUser id) (Direct.ask db (.findUser id)) :=
  read _ ((ask (.findUser id)).passing fun found => fillFound _ found)

theorem findPassword (id : Uuid) : Mirrors db a (a.findPassword id) (Direct.ask db (.findPassword id)) :=
  read _ ((ask (.findPassword id)).passing fun found => fillFound _ found)

theorem findUserByEmail (address : String) :
    Mirrors db a (a.findUserByEmail address) (Direct.findUserByEmail db address) := by
  have led : Mirrors db a (a.findUserId address)
      (do return (← Direct.ask db (.findUserByEmail address)).map (·.id)) :=
    read _ ((ask (.findUserByEmail address)).bind fun found => fillFound _ (found.map (·.id)))
  -- What is cached under an address is the id alone.
  have direct : Direct.findUserByEmail db address =
      (do return (← Direct.ask db (.findUserByEmail address)).map (·.id)) >>= fun found =>
        found.elim (Pure.pure none) fun id => Direct.ask db (.findUser id) := by
    rw [Direct.findUserByEmail, bind_assoc]
    congr
    funext found
    cases found with
    | some row => rfl
    | none => rfl
  rw [direct]
  refine led.bind fun found => ?_
  cases found with
  | some id => exact findUser id
  | none => exact pure none

theorem completeSession (key : String) (found : Option Session) :
    Mirrors db a (a.completeSession key found) (Direct.withOwner db found) := by
  cases found with
  | none => exact beside (idles_fillAbsent key) (pure none)
  | some row =>
    refine (findUser row.userId).bind fun owner => ?_
    cases owner with
    | none => exact beside (p := Action.warn _) (fun _ => rfl) (pure none)
    | some user => exact beside (idles_cacheSession _) (pure _)

theorem findSession (id : Int) : Mirrors db a (a.findSession id) (Direct.findSession db id) :=
  read _ ((ask (.findSession id)).bind fun found => completeSession _ found)

theorem loadPermission :
    Mirrors db a a.loadPermission (do return .ofGrants (← Direct.ask db .findGrants)) := by
  have filled : ∀ p, Idles db a (a.fillPermission p) := by
    intro p
    refine idles_store _ fun outcome s => ?_
    cases outcome with
    | ok => rfl
    | error e => rfl
  have loaded : Mirrors db a
      (do
        let grants ← Operation.database .findGrants
        let p := Permission.ofGrants grants
        a.fillPermission p
        return some p)
      (do return some (.ofGrants (← Direct.ask db .findGrants))) :=
    (ask .findGrants).bind fun grants => beside (filled _) (pure _)
  have direct : (do return .ofGrants (← Direct.ask db .findGrants) : Direct σ Permission) =
      (do return some (.ofGrants (← Direct.ask db .findGrants))) >>= fun found => Pure.pure (found.getD .empty) := by
    rw [bind_assoc]
    rfl
  rw [direct]
  exact (read _ loaded).bind fun found => pure _

end Mirrors

theorem Mirrors.checkToken (text : String) :
    Mirrors db a (ExceptT.lift (a.checkToken text)) (Pure.pure false) := by
  intro s
  have unknown : ComesTo db (a.cache.policy.disabled = false) (false, s) (a.checkToken text) s := by
    rw [Accounts.checkToken, Cache.Manager.get]
    split
    · rfl
    · next asked =>
      have enabled : a.cache.policy.disabled = false := Bool.eq_false_iff.2 asked
      exact ⟨enabled, fun _ => rfl⟩
  exact unknown.bind rfl

/-- An operation that the cache has no part in comes to what the database
alone makes of it. -/
theorem Job.mirrors {α : Type} (job : Job α) : Mirrors db a (job.perform a) (job.direct db) := by
  cases job with
  | createUser user hash => exact (Mirrors.ask (.createUser user hash)).passing fun _ => .idle (idles_invalidate _)
  | updateUser user =>
    refine (Mirrors.ask (.updateUser user)).bind fun found => ?_
    cases found with
    | none => exact .pure none
    | some row => exact .beside (idles_invalidate _) (.findUser row.id)
  | deleteUser id =>
    exact (Mirrors.ask (.deleteUser id)).passing fun found => .beside (idles_invalidate _) (.pure found)
  | updatePassword id hash =>
    exact (Mirrors.ask (.updatePassword id hash)).passing fun _ => .idle (idles_invalidate _)
  | findUser id => exact .findUser id
  | findUserByEmail address => exact .findUserByEmail address
  | findPassword id => exact .findPassword id
  | createSession row =>
    exact (Mirrors.ask (.createSession row)).passing fun created => .beside (idles_cacheSession created) (.pure created)
  | refreshSession old tokens =>
    exact (Mirrors.ask (.updateTokens old.id tokens)).bind fun _ => .beside (idles_invalidate _) (.findSession old.id)
  | deleteSession row => exact (Mirrors.ask (.deleteSession row.id)).passing fun _ => .idle (idles_invalidate _)
  | findSessionByToken type text =>
    exact .read _ ((Mirrors.ask (.findSessionByToken type text)).bind fun found => .completeSession _ found)
  | findSession id => exact .findSession id
  | checkToken text => exact .checkToken text
  | createGrant g => exact (Mirrors.ask (.createGrant g)).passing fun _ => .idle (idles_invalidate _)
  | loadPermission => exact .loadPermission

def Heeds (db : Database.Machine σ) : σ → List (Exchange effects) → σ → Prop
  | s, [], s' => s' = s
  | s, ⟨.database r, answer⟩ :: talk, s' => answer = (db s r).1 ∧ Heeds db (db s r).2 talk s'
  | s, _ :: talk, s' => Heeds db s talk s'

def IsVain : Exchange effects → Prop
  | ⟨.cache _, .ok _⟩ => False
  | _ => True

/-- Whether an effect takes no waiting, and does not go to a cache that is
switched off. -/
def IsPrompt (a : Accounts) : Effect → Prop
  | .database _ | .wallClock | .warn _ => True
  | .cache _ => a.cache.policy.disabled = false
  | _ => False

theorem ComesTo.isPrompt {e : Effect} {next : e.Answer → Action α} {result : α × σ}
    (comes : ComesTo db (a.cache.policy.disabled = false) result (.ask e next) s) : IsPrompt a e := by
  cases e with
  | database | wallClock | warn => trivial
  | cache r => exact comes.1
  | clock | draw | sleep | overflow => exact comes.elim

/-- Where nothing comes of the cache, a program comes to its result
from wherever it has got. The induction is on the course that it has
taken so far. -/
theorem ComesTo.of_course {p q : Action α} {talk : List (Exchange effects)} {result : α × σ}
    (comes : ComesTo db (a.cache.policy.disabled = false) result p s) (course : Course p talk q)
    (heeds : Heeds db s talk s') (vain : a.cache.policy.disabled = false → ∀ x ∈ talk, IsVain x) :
    ComesTo db (a.cache.policy.disabled = false) result q s' := by
  induction course generalizing s with
  | stay =>
    cases heeds
    exact comes
  | @ask e next talk q answer course ih =>
    have later : a.cache.policy.disabled = false → ∀ x ∈ talk, IsVain x := fun enabled x member =>
      vain enabled x (List.mem_cons_of_mem _ member)
    cases e with
    | database r =>
      obtain ⟨rfl, heeds⟩ := heeds
      exact ih comes heeds later
    | cache r =>
      cases answer with
      | ok value => exact (vain comes.1 _ List.mem_cons_self).elim
      | error e => exact ih (comes.2 e) heeds later
    | wallClock => exact ih (comes answer) heeds later
    | warn message => exact ih comes heeds later
    | clock | draw | sleep | overflow => exact comes.elim

/-- A program that comes to a result has a course on which it does so and
every request to the cache fails. -/
theorem ComesTo.exists_course (error : Cache.Error) {enabled : Prop} {p : Action α} {result : α × σ}
    (comes : ComesTo db enabled result p s) :
    ∃ talk, Course p talk (.done result.1) ∧ Heeds db s talk result.2 ∧ ∀ x ∈ talk, IsVain x := by
  induction p generalizing s with
  | done value =>
    cases comes
    exact ⟨[], .stay, rfl, fun _ => nofun⟩
  | ask e next ih =>
    cases e with
    | database r =>
      obtain ⟨talk, course, heeds, vain⟩ := ih _ comes
      exact ⟨⟨.database r, _⟩ :: talk, .ask _ course, ⟨rfl, heeds⟩, List.forall_mem_cons.2 ⟨trivial, vain⟩⟩
    | cache r =>
      obtain ⟨talk, course, heeds, vain⟩ := ih _ (comes.2 error)
      exact ⟨⟨.cache r, .error error⟩ :: talk, .ask _ course, heeds, List.forall_mem_cons.2 ⟨trivial, vain⟩⟩
    | wallClock =>
      obtain ⟨talk, course, heeds, vain⟩ := ih .epoch (comes .epoch)
      exact ⟨⟨.wallClock, _⟩ :: talk, .ask _ course, heeds, List.forall_mem_cons.2 ⟨trivial, vain⟩⟩
    | warn message =>
      obtain ⟨talk, course, heeds, vain⟩ := ih () comes
      exact ⟨⟨.warn message, ()⟩ :: talk, .ask _ course, heeds, List.forall_mem_cons.2 ⟨trivial, vain⟩⟩
    | clock | draw | sleep | overflow => exact comes.elim

def IsElsewhere : Effect → Prop
  | .database _ => False
  | _ => True

theorem covers_isElsewhere : Effect.Covers IsElsewhere where
  quiet e quiet := by
    cases e with
    | cache | database => cases quiet
    | _ => trivial
  look _ _ := trivial
  drop _ := trivial

theorem Heeds.eq_of_elsewhere {talk : List (Exchange effects)} (elsewhere : ∀ x ∈ talk, IsElsewhere x.request)
    (heeds : Heeds db s talk s') : s' = s := by
  induction talk with
  | nil => exact heeds
  | cons x talk ih =>
    obtain ⟨own, later⟩ := List.forall_mem_cons.1 elsewhere
    obtain ⟨e, answer⟩ := x
    cases e with
    | database r => exact own.elim
    | _ => exact ih later heeds

namespace Service

variable {α : Type}

/-- Whether an operation can do without the cache. With the cache switched
off all can. -/
def DoesWithout (a : Accounts) (service : Service α) : Prop :=
  a.cache.policy.disabled = true ∨ ∃ job, service = .job job

/-- With the cache switched off failed logins are not counted, and nobody is
locked out. -/
theorem mirrors (service : Service α) (able : service.DoesWithout a) :
    Mirrors db a (service.perform a) (service.direct db) := by
  cases service with
  | job job => exact job.mirrors
  | countLoginAttempt address =>
    obtain disabled | ⟨_, ⟨⟩⟩ := able
    intro s
    simp only [perform, Accounts.countLoginAttempt, Cache.Manager.increment, Cache.Manager.expire, disabled, if_true]
    rfl
  | isLoginLocked address =>
    obtain disabled | ⟨_, ⟨⟩⟩ := able
    intro s
    simp only [perform, Accounts.isLoginLocked, Cache.Manager.lifetime, disabled, if_true]
    rfl

/-- Whatever the cache does to it, an operation that nothing comes of the
cache for leaves the database as it would leave it without a cache. -/
theorem state_of_course {service : Service α} {talk : List (Exchange effects)} {outcome : Except Error α}
    (course : Course (service.perform a).run talk (.done outcome)) (heeds : Heeds db s talk s')
    (vain : a.cache.policy.disabled = false → ∀ x ∈ talk, IsVain x) : s' = ((service.direct db).run s).2 := by
  have elsewhere : AsksOnly IsElsewhere (service.perform a).run → s' = s := fun asks =>
    heeds.eq_of_elsewhere (asks.of_course course)
  cases service with
  | job job =>
    have came : (outcome, s') = (job.direct db).run s := (job.mirrors s).of_course course heeds vain
    exact congrArg Prod.snd came
  | countLoginAttempt address => exact elsewhere (asks_countLoginAttempt fun _ _ => trivial)
  | isLoginLocked address => exact elsewhere (asks_isLoginLocked covers_isElsewhere fun _ _ => trivial)

end Service

structure Ended where
  {α : Type}
  service : Service α
  talk : List (Exchange effects)
  outcome : Except Error α

/-- Whether operations followed one another over a database, and took it
from one state to another. -/
def Successive (db : Database.Machine σ) (a : Accounts) : σ → List Ended → σ → Prop
  | s, [], s' => s' = s
  | s, x :: rest, s' => ∃ between, Course (x.service.perform a).run x.talk (.done x.outcome) ∧
    Heeds db s x.talk between ∧ Successive db a between rest s'

/-- Whether operations that can do without the cache came to what the
database alone makes of them, one after the other. -/
def Determined (db : Database.Machine σ) (a : Accounts) : σ → List Ended → σ → Prop
  | s, [], s' => s' = s
  | s, x :: rest, s' => (x.service.DoesWithout a → x.outcome = ((x.service.direct db).run s).1) ∧
    Determined db a ((x.service.direct db).run s).2 rest s'

/-- Where nothing comes of the cache, because it is switched off or because
all requests to it fail, an operation comes to an end, and on its way asks
for nothing that takes waiting and nothing of a cache that is switched off.
Whatever the database is, and whichever requests it refuses, operations that
follow one another end each with what the database alone makes of it. -/
theorem reads_through (db : Database.Machine σ) (a : Accounts) :
    (∀ {α : Type} (service : Service α) (s : σ), service.DoesWithout a →
      (∃ talk, Course (service.perform a).run talk (.done ((service.direct db).run s).1) ∧
        Heeds db s talk ((service.direct db).run s).2 ∧ ∀ x ∈ talk, IsVain x) ∧
      ∀ talk e next s', Course (service.perform a).run talk (.ask e next) → Heeds db s talk s' →
        (a.cache.policy.disabled = false → ∀ x ∈ talk, IsVain x) → IsPrompt a e) ∧
    ∀ (ended : List Ended) (s s' : σ), Successive db a s ended s' →
      (a.cache.policy.disabled = false → ∀ x ∈ ended, ∀ y ∈ x.talk, IsVain y) → Determined db a s ended s' := by
  refine ⟨fun service s able => ⟨?_, ?_⟩, ?_⟩
  · exact (service.mirrors able s).exists_course .pool
  · intro talk e next s' course heeds vain
    have rest := (service.mirrors able s).of_course course heeds vain
    exact rest.isPrompt
  · intro ended
    induction ended with
    | nil => exact fun _ _ same _ => same
    | cons x rest ih =>
      rintro s s' ⟨between, course, heeds, later⟩ vain
      have own : a.cache.policy.disabled = false → ∀ y ∈ x.talk, IsVain y := fun enabled =>
        vain enabled x List.mem_cons_self
      have state := Service.state_of_course course heeds own
      refine ⟨fun able => ?_, ?_⟩
      · have came := (x.service.mirrors able s).of_course course heeds own
        exact congrArg Prod.fst (came : (x.outcome, between) = _)
      · rw [← state]
        exact ih _ _ later fun enabled y member => vain enabled y (List.mem_cons_of_mem _ member)

/-- While every request to the cache fails a session is found, and has the
role that its owner has now. -/
theorem session_read_through : ∃ a : Accounts, ∃ tables talk,
    a.cache.policy.disabled = false ∧
    tables = ((({} : Database.Tables).putUser ⟨.zero, "n", "a@b", "admin", "", .epoch, .epoch⟩ "h").addSession
      ⟨0, .zero, "x", "y", .epoch, .epoch, "", "guest", .epoch, .epoch⟩).2 ∧
    Successive (fun t r => t.serve .epoch r) a tables
      [⟨.job (.findSession 1), talk, .ok (some ⟨1, .zero, "x", "y", .epoch, .epoch, "", "admin", .epoch, .epoch⟩)⟩]
      tables ∧
    (∀ x ∈ talk, IsVain x) ∧
    Determined (fun t r => t.serve .epoch r) a tables
      [⟨.job (.findSession 1), talk, .ok (some ⟨1, .zero, "x", "y", .epoch, .epoch, "", "admin", .epoch, .epoch⟩)⟩]
      tables := by
  obtain ⟨single, runs⟩ := reads_through (fun t r => Database.Tables.serve t .epoch r) ⟨default, ⟨5, .ofSeconds 60⟩⟩
  obtain ⟨⟨talk, course, heeds, vain⟩, _⟩ := single (.job (.findSession 1))
    ((({} : Database.Tables).putUser ⟨.zero, "n", "a@b", "admin", "", .epoch, .epoch⟩ "h").addSession
      ⟨0, .zero, "x", "y", .epoch, .epoch, "", "guest", .epoch, .epoch⟩).2 (.inr ⟨_, rfl⟩)
  refine ⟨⟨default, ⟨5, .ofSeconds 60⟩⟩, _, talk, rfl, rfl, ⟨_, course, heeds, rfl⟩, vain, ?_⟩
  exact runs _ _ _ ⟨_, course, heeds, rfl⟩ fun _ => List.forall_mem_singleton.2 vain

end Accounts

end AccountCache
