import AccountCache.Proofs.Coherence.Readers
import AccountCache.Proofs.Faults.Outcomes

namespace AccountCache

open Cache (nilBytes)
open Program (Ends AsksOnly Course)
open Simulation (Interleaved exchanges)

namespace Accounts

/-- The operations that are to go on while the cache fails, by what
they yield. -/
inductive Job : Type → Type
  | createUser (user : User) (hash : String) : Job Unit
  | updateUser (user : User) : Job (Option User)
  | deleteUser (id : Uuid) : Job (Option User)
  | updatePassword (id : Uuid) (hash : String) : Job Unit
  | findUser (id : Uuid) : Job (Option User)
  | findUserByEmail (address : String) : Job (Option User)
  | findPassword (id : Uuid) : Job (Option String)
  | createSession (session : Session) : Job Session
  | refreshSession (old : Session) (tokens : SessionTokens) : Job (Option Session)
  | deleteSession (session : Session) : Job Unit
  | findSessionByToken (type : TokenType) (text : String) : Job (Option Session)
  | findSession (id : Int) : Job (Option Session)
  | checkToken (text : String) : Job Bool
  | createGrant (grant : Grant) : Job Unit
  | loadPermission : Job Permission

section

variable (known : Exchange effects → Prop)

def FindsUser (id : Uuid) : Except Error (Option User) → Prop :=
  Reads known (Key.user id) (Answered known (.findUser id))

def FindsUserId (address : String) : Except Error (Option Uuid) → Prop :=
  Reads known (Key.email address) <|
    Then (Answered known (.findUserByEmail address)) fun found outcome => outcome = .ok (found.map (·.id))

def FindsUserByEmail (address : String) : Except Error (Option User) → Prop :=
  Then (FindsUserId known address) fun
    | some id => FindsUser known id
    | none => (· = .ok none)

/-- A session that the database has counts if its owner is found, and has
the owner's role. Without an owner there is no session. -/
def Completes : Option Session → Except Error (Option Session) → Prop
  | some s => Then (FindsUser known s.userId) fun owner outcome =>
    outcome = .ok (owner.map fun user => { s with role := user.role })
  | none => (· = .ok none)

def FindsSessionByToken (type : TokenType) (text : String) : Except Error (Option Session) → Prop :=
  Reads known (Key.token text) (Then (Answered known (.findSessionByToken type text)) (Completes known))

def FindsSession (id : Int) : Except Error (Option Session) → Prop :=
  Reads known (Key.session id) (Then (Answered known (.findSession id)) (Completes known))

def LoadsPermission : Except Error Permission → Prop :=
  Then
    (Reads known Key.permission <|
      Then (Answered known .findGrants) fun grants outcome => outcome = .ok (some (.ofGrants grants)))
    fun found outcome => outcome = .ok (found.getD .empty)

/-- The outcome of a check that asks the cache alone: only an entry that was
read counts. -/
inductive Checks (a : Accounts) (text : String) : Except Error Bool → Prop
  | live {bytes} : known ⟨.cache (.get (Key.token text)), .ok (some bytes)⟩ → bytes ≠ nilBytes →
    Checks a text (.ok true)
  | dead {answer} : known ⟨.cache (.get (Key.token text)), answer⟩ →
    (∀ bytes, answer = .ok (some bytes) → bytes = nilBytes) → Checks a text (.ok false)
  | disabled : a.cache.policy.disabled = true → Checks a text (.ok false)

end

namespace Job

variable {α : Type}

def perform (a : Accounts) : Job α → Operation α
  | createUser user hash => a.createUser user hash
  | updateUser user => a.updateUser user
  | deleteUser id => a.deleteUser id
  | updatePassword id hash => a.updatePassword id hash
  | findUser id => a.findUser id
  | findUserByEmail address => a.findUserByEmail address
  | findPassword id => a.findPassword id
  | createSession s => a.createSession s
  | refreshSession old tokens => a.refreshSession old tokens
  | deleteSession s => a.deleteSession s
  | findSessionByToken type text => a.findSessionByToken type text
  | findSession id => a.findSession id
  | checkToken text => ExceptT.lift (a.checkToken text)
  | createGrant g => a.createGrant g
  | loadPermission => a.loadPermission

def write? : Job α → Option Database.Request
  | createUser user hash => some (.createUser user hash)
  | updateUser user => some (.updateUser user)
  | deleteUser id => some (.deleteUser id)
  | updatePassword id hash => some (.updatePassword id hash)
  | createSession s => some (.createSession s)
  | refreshSession old tokens => some (.updateTokens old.id tokens)
  | deleteSession s => some (.deleteSession s.id)
  | createGrant g => some (.createGrant g)
  | _ => none

/-- What an operation may end with, told from what is known. A write yields
what the database answered; after an update the row is read again. -/
def Expects (a : Accounts) (known : Exchange effects → Prop) : Job α → Except Error α → Prop
  | createUser user hash => Answered known (.createUser user hash)
  | updateUser user => Then (Answered known (.updateUser user)) fun
    | some row => FindsUser known row.id
    | none => (· = .ok none)
  | deleteUser id => Answered known (.deleteUser id)
  | updatePassword id hash => Answered known (.updatePassword id hash)
  | findUser id => FindsUser known id
  | findUserByEmail address => FindsUserByEmail known address
  | findPassword id => Reads known (Key.password id) (Answered known (.findPassword id))
  | createSession s => Answered known (.createSession s)
  | refreshSession old tokens => Then (Answered known (.updateTokens old.id tokens)) fun _ => FindsSession known old.id
  | deleteSession s => Answered known (.deleteSession s.id)
  | findSessionByToken type text => FindsSessionByToken known type text
  | findSession id => FindsSession known id
  | checkToken text => Checks known a text
  | createGrant g => Answered known (.createGrant g)
  | loadPermission => LoadsPermission known

end Job

variable {known : Exchange effects → Prop} {a : Accounts} {α β : Type}

theorem ends_write {r : Database.Request} {p : r.Result → Action Unit} :
    (Operation.database r >>= fun value => ExceptT.lift (p value) >>= fun _ => pure value).run.Ends known
      (Answered known r) :=
  ends_andThen (ends_database r) (fun _ ended => ends_anyway fun _ => ended) fun _ ended => ended

theorem ends_loadRow [Storable α] {key : String} {r : Database.Request} {f : r.Result → Option α} :
    (a.read key do
      let found ← Operation.database r
      a.fillFound key (f found)).run.Ends known
      (Reads known key (Then (Answered known r) fun found outcome => outcome = .ok (f found))) := by
  refine ends_read (ends_then (ends_database r) fun found _ => ?_)
  cases same : f found with
  | none => exact ends_anyway fun _ => rfl
  | some value => exact ends_anyway fun _ => rfl

theorem Answered.of_then {r : Database.Request} {outcome : Except Error r.Result}
    (told : Then (Answered known r) (fun value outcome => outcome = .ok value) outcome) : Answered known r outcome := by
  cases told with
  | broken failed => exact failed
  | continued answered same => exact same ▸ answered

theorem Reads.mono [Storable α] {key : String} {loaded loaded' : Except Error (Option α) → Prop}
    {outcome : Except Error (Option α)} (reads : Reads known key loaded outcome)
    (weaker : ∀ outcome, loaded outcome → loaded' outcome) : Reads known key loaded' outcome := by
  cases reads with
  | absent heard => exact .absent heard
  | hit heard row decoded => exact .hit heard row decoded
  | corrupt heard row undecodable => exact .corrupt heard row undecodable
  | late heard => exact .late heard
  | loaded ended => exact .loaded (weaker _ ended)

theorem ends_findUser (id : Uuid) : (a.findUser id).run.Ends known (FindsUser known id) :=
  (ends_loadRow (r := .findUser id) (f := fun found => found)).mono fun _ reads => reads.mono fun _ => .of_then

theorem ends_findPassword (id : Uuid) :
    (a.findPassword id).run.Ends known (Reads known (Key.password id) (Answered known (.findPassword id))) :=
  (ends_loadRow (r := .findPassword id) (f := fun found => found)).mono fun _ reads => reads.mono fun _ => .of_then

theorem ends_findUserByEmail (address : String) :
    (a.findUserByEmail address).run.Ends known (FindsUserByEmail known address) := by
  have led : (a.findUserId address).run.Ends known (FindsUserId known address) :=
    ends_loadRow (r := .findUserByEmail address) (f := fun found => found.map (·.id))
  refine ends_then led fun found _ => ?_
  cases found with
  | some id => exact ends_findUser id
  | none => rfl

theorem ends_completeSession (key : String) (found : Option Session) :
    (a.completeSession key found).run.Ends known (Completes known found) := by
  cases found with
  | none => exact ends_anyway fun _ => rfl
  | some s =>
    refine ends_then (ends_findUser s.userId) fun owner _ => ?_
    cases owner with
    | none => exact ends_anyway fun _ => rfl
    | some user => exact ends_anyway fun _ => rfl

theorem ends_findSession (id : Int) : (a.findSession id).run.Ends known (FindsSession known id) :=
  ends_read (ends_then (ends_database _) fun found _ => ends_completeSession _ found)

theorem ends_loadPermission : a.loadPermission.run.Ends known (LoadsPermission known) := by
  refine ends_then (ends_read (ends_then (ends_database .findGrants) fun grants _ => ?_)) fun found _ => rfl
  exact ends_anyway fun _ => rfl

theorem ends_checkToken (text : String) :
    (ExceptT.lift (a.checkToken text) : Operation Bool).run.Ends known (Checks known a text) := by
  have checked : (a.checkToken text).Ends known fun live => Checks known a text (.ok live) := by
    rw [checkToken, Cache.Manager.get]
    split
    · next disabled => exact .disabled disabled
    · intro answer heard
      rcases answer with e | _ | bytes
      · exact fun _ _ => .dead heard (by rintro _ ⟨⟩)
      · exact .dead heard (by rintro _ ⟨⟩)
      · by_cases mark : bytes = nilBytes
        · subst mark
          refine .dead heard ?_
          rintro _ ⟨⟩
          rfl
        · have live : (Cache.Cached.ofBytes bytes).isAbsent = false := by
            rw [Cache.Cached.ofBytes, if_neg mark]
            rfl
          show Checks known a text (.ok !(Cache.Cached.ofBytes bytes).isAbsent)
          rw [live]
          exact .live heard mark
  exact checked.bind fun _ ended => ended

/-- Whatever the cache answers, an operation ends as it should. -/
theorem Job.ends (job : Job α) : (job.perform a).run.Ends known (job.Expects a known) := by
  cases job with
  | createUser | updatePassword | deleteSession | createGrant =>
    exact ends_andThen (ends_database _) (fun _ ended => (Ends.any _).bind fun _ _ => ended) fun _ ended => ended
  | deleteUser | createSession => exact ends_write
  | updateUser user =>
    refine ends_then (ends_database _) fun found _ => ?_
    cases found with
    | none => rfl
    | some row => exact ends_anyway fun _ => ends_findUser row.id
  | refreshSession old tokens =>
    exact ends_then (ends_database _) fun _ _ => ends_anyway fun _ => ends_findSession old.id
  | findUser id => exact ends_findUser id
  | findUserByEmail address => exact ends_findUserByEmail address
  | findPassword id => exact ends_findPassword id
  | findSessionByToken type text =>
    exact ends_read (ends_then (ends_database _) fun found _ => ends_completeSession _ found)
  | findSession id => exact ends_findSession id
  | checkToken text => exact ends_checkToken text
  | loadPermission => exact ends_loadPermission

section

variable {e : Error}

theorem FindsUser.surfaces {id : Uuid} (ended : FindsUser known id (.error e)) : Surfaces known e :=
  Reads.surfaces ended Answered.surfaces

theorem FindsUserByEmail.surfaces {address : String} (ended : FindsUserByEmail known address (.error e)) :
    Surfaces known e := by
  refine Then.surfaces ended (fun led => ?_) fun found _ ended => ?_
  · exact Reads.surfaces led fun loaded => Then.surfaces loaded Answered.surfaces fun _ _ => nofun
  · cases found with
    | some id => exact FindsUser.surfaces ended
    | none => cases ended

theorem Completes.surfaces {found : Option Session} (ended : Completes known found (.error e)) : Surfaces known e := by
  cases found with
  | none => cases ended
  | some s => exact Then.surfaces ended FindsUser.surfaces fun _ _ => nofun

theorem FindsSession.surfaces {id : Int} (ended : FindsSession known id (.error e)) : Surfaces known e :=
  Reads.surfaces ended fun loaded => Then.surfaces loaded Answered.surfaces fun _ _ => Completes.surfaces

theorem LoadsPermission.surfaces (ended : LoadsPermission known (.error e)) : Surfaces known e := by
  refine Then.surfaces ended (fun failed => ?_) fun _ _ => nofun
  exact Reads.surfaces failed fun loaded => Then.surfaces loaded Answered.surfaces fun _ _ => nofun

/-- An operation as it should end comes to no error of the cache but that of
a wait that took too long, or of an entry that makes no sense. -/
theorem Job.surfaces {job : Job α} (ended : job.Expects a known (.error e)) : Surfaces known e := by
  cases job with
  | createUser | deleteUser | updatePassword | createSession | deleteSession | createGrant =>
    exact Answered.surfaces ended
  | updateUser user =>
    refine Then.surfaces ended Answered.surfaces fun found _ ended => ?_
    cases found with
    | none => cases ended
    | some row => exact FindsUser.surfaces ended
  | refreshSession => exact Then.surfaces ended Answered.surfaces fun _ _ => FindsSession.surfaces
  | findUser => exact FindsUser.surfaces ended
  | findUserByEmail => exact FindsUserByEmail.surfaces ended
  | findPassword => exact Reads.surfaces ended Answered.surfaces
  | findSessionByToken =>
    exact Reads.surfaces ended fun loaded => Then.surfaces loaded Answered.surfaces fun _ _ => Completes.surfaces
  | findSession => exact FindsSession.surfaces ended
  | checkToken => cases ended
  | loadPermission => exact LoadsPermission.surfaces ended

end

def writes (talk : List (Exchange effects)) : List Database.Request :=
  talk.filterMap fun x =>
    match x.request with
    | .database r => if r.isRead then none else some r
    | _ => none

/-- Whether an effect writes nothing to the database. -/
def SparesRows : Effect → Prop
  | .database r => r.isRead = true
  | _ => True

theorem covers_sparesRows : Effect.Covers SparesRows where
  quiet e quiet := by
    cases e with
    | cache | database => cases quiet
    | _ => trivial
  look _ _ := trivial
  drop _ := trivial

theorem writes_eq_nil {talk : List (Exchange effects)} (spares : ∀ x ∈ talk, SparesRows x.request) :
    writes talk = [] := by
  refine List.filterMap_eq_nil_iff.2 fun ⟨e, answer⟩ member => ?_
  have own := spares _ member
  cases e with
  | database r => exact if_pos own
  | _ => rfl

theorem asks_cacheSession (s : Session) : AsksOnly SparesRows (a.cacheSession s) := by
  cases encoded : Storable.encode? s with
  | none =>
    unfold cacheSession
    rw [encoded]
    exact asks_warn covers_sparesRows _
  | some bytes =>
    rw [cacheSession_eq a encoded]
    refine .ask trivial fun now => .ask trivial fun later => ?_
    simp only [Program.bind_done, cacheItems, Cache.Manager.storeMany]
    split
    · exact .done _
    · refine .ask trivial fun answer => ?_
      cases answer with
      | ok => exact .done _
      | error e => exact asks_warn covers_sparesRows _

theorem asks_completeSession (key : String) (found : Option Session) :
    AsksOnly SparesRows (a.completeSession key found).run := by
  cases found with
  | none =>
    exact asks_andThen (asks_lift (asks_fillAbsent covers_sparesRows fun _ => trivial)) fun _ => .done _
  | some s =>
    refine asks_andThen (asks_findUser covers_sparesRows rfl fun _ _ => trivial) fun owner => ?_
    cases owner with
    | none => exact asks_andThen (asks_lift (asks_warn covers_sparesRows _)) fun _ => .done _
    | some user => exact asks_andThen (asks_lift (asks_cacheSession _)) fun _ => .done _

theorem asks_findSession (id : Int) : AsksOnly SparesRows (a.findSession id).run :=
  asks_read covers_sparesRows _ <|
    asks_andThen (asks_database (r := .findSession id) rfl) fun _ => asks_completeSession _ _

/-- An operation that writes first and then only reads has written once it
has begun. The course that it has taken so far may have stopped anywhere
behind the write. -/
theorem writes_of_course {r : Database.Request} {f : r.Result → Operation β} {talk : List (Exchange effects)}
    {q : Action (Except Error β)} (write : r.isRead = false) (rest : ∀ value, AsksOnly SparesRows (f value).run)
    (course : Course (Operation.database r >>= f).run talk q) (begun : talk ≠ []) : writes talk = [r] := by
  obtain ⟨none, _⟩ | ⟨answer, later, rfl, further⟩ := course.of_ask
  · exact absurd none begun
  · have spares : ∀ x ∈ later, SparesRows x.request := by
      refine AsksOnly.of_course ?_ further
      cases answer with
      | ok value => exact rest value
      | error e => exact .done _
    have first : writes (⟨.database r, answer⟩ :: later) = r :: writes later :=
      List.filterMap_cons_some (if_neg (by rw [write]; exact Bool.false_ne_true))
    rw [first, writes_eq_nil spares]

/-- An operation that has begun has made its own write, and no other. -/
theorem Job.writes_eq_write {job : Job α} {talk : List (Exchange effects)} {q : Action (Except Error α)}
    (course : Course (job.perform a).run talk q) (begun : talk ≠ []) : writes talk = job.write?.toList := by
  have after : ∀ keys, AsksOnly SparesRows (ExceptT.lift (a.invalidate keys) : Operation Unit).run := fun keys =>
    asks_lift (asks_invalidate covers_sparesRows keys)
  have reads : ∀ {p : Operation α}, AsksOnly SparesRows p.run → Course p.run talk q → writes talk = [] :=
    fun asks course => writes_eq_nil (asks.of_course course)
  cases job with
  | createUser user hash => exact writes_of_course rfl (fun _ => after _) course begun
  | updateUser user =>
    refine writes_of_course rfl (fun found => ?_) course begun
    cases found with
    | none => exact .done _
    | some row =>
      exact asks_andThen (after _) fun _ => asks_findUser covers_sparesRows rfl fun _ _ => trivial
  | deleteUser id => exact writes_of_course rfl (fun _ => asks_andThen (after _) fun _ => .done _) course begun
  | updatePassword id hash => exact writes_of_course rfl (fun _ => after _) course begun
  | createSession s =>
    refine writes_of_course rfl (fun created => ?_) course begun
    exact asks_andThen (asks_lift (asks_cacheSession created)) fun _ => .done _
  | refreshSession old tokens =>
    refine writes_of_course rfl (fun _ => ?_) course begun
    exact asks_andThen (after _) fun _ => asks_findSession old.id
  | deleteSession s => exact writes_of_course rfl (fun _ => after _) course begun
  | createGrant g => exact writes_of_course rfl (fun _ => after _) course begun
  | findUser id => exact reads (asks_findUser covers_sparesRows rfl fun _ _ => trivial) course
  | findUserByEmail address =>
    exact reads (asks_findUserByEmail covers_sparesRows (fun _ read => read) (fun _ => trivial) address) course
  | findPassword id => exact reads (asks_findPassword covers_sparesRows rfl fun _ _ => trivial) course
  | findSessionByToken type text =>
    exact reads (asks_read covers_sparesRows _ <|
      asks_andThen (asks_database (r := .findSessionByToken type text) rfl) fun _ => asks_completeSession _ _) course
  | findSession id => exact reads (asks_findSession id) course
  | checkToken text => exact reads (asks_lift (asks_checkToken covers_sparesRows text)) course
  | loadPermission =>
    exact reads (asks_loadPermission covers_sparesRows (fun _ read => read) fun _ => trivial) course

/-- Whatever is answered on the way, an operation that has begun has made
its own write and no other. Where it ends, it ends with what the database
and the entries it could read say, and an error is one of the database, of a
wait that took too long, or of an entry that makes no sense. -/
theorem outcome_of_course (a : Accounts) (job : Job α) {talk : List (Exchange effects)}
    {q : Action (Except Error α)} (course : Course (job.perform a).run talk q) :
    (talk ≠ [] → writes talk = job.write?.toList) ∧
    ∀ outcome, q = .done outcome →
      job.Expects a (· ∈ talk) outcome ∧ ∀ e, outcome = .error e → Surfaces (· ∈ talk) e := by
  refine ⟨Job.writes_eq_write course, ?_⟩
  rintro outcome rfl
  have ended : job.Expects a (· ∈ talk) outcome := job.ends.of_course course fun _ => id
  refine ⟨ended, ?_⟩
  rintro e rfl
  exact Job.surfaces ended

/-- In a world where nothing works but the database, a user is found. -/
theorem user_found_while_cache_fails : ∃ trace w, ∃ ps : Unit → Action (Except Error (Option User)),
    Interleaved (fun _ _ => True)
      { cacheFault := fun _ => some .pool
        tables := ({} : Database.Tables).putUser ⟨.zero, "n", "a@b", "r", "", .epoch, .epoch⟩ "h" }
      (fun _ => ((Job.findUser .zero).perform ⟨default, ⟨5, .ofSeconds 60⟩⟩).run) trace w ps ∧
    ps () = .done (.ok (some ⟨.zero, "n", "a@b", "r", "", .epoch, .epoch⟩)) ∧
    FindsUser (· ∈ exchanges () trace) .zero (.ok (some ⟨.zero, "n", "a@b", "r", "", .epoch, .epoch⟩)) := by
  have fresh := @Interleaved.start Unit _ _ (fun _ _ => True)
    { cacheFault := fun _ => some .pool
      tables := ({} : Database.Tables).putUser ⟨.zero, "n", "a@b", "r", "", .epoch, .epoch⟩ "h" }
    fun _ => ((Job.findUser .zero).perform ⟨default, ⟨5, .ofSeconds 60⟩⟩).run
  have missed := (fresh.call () rfl (.error .pool) rfl).step () rfl (.warn _)
  have unlocked := (missed.call () rfl (.error .pool) rfl).step () rfl (.warn _)
  have loaded := unlocked.step () rfl (.database (.findUser .zero))
  have ended := (loaded.call () rfl (.error .pool) rfl).step () rfl (.warn _)
  exact ⟨_, _, _, ended, rfl, ((outcome_of_course _ (.findUser .zero) (ended.course ())).2 _ rfl).1⟩

end Accounts

end AccountCache
