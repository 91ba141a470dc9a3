import AccountCache.Accounts.Users
import AccountCache.Proofs.Coherence.Subject
import AccountCache.Proofs.Sequential.Calm
import AccountCache.Proofs.Sequential.Right

namespace AccountCache

open Database (Tables)
open Simulation (World Circumstances Ensures)

namespace Database.Tables

variable {t t' : Tables} {r : Database.Request}

theorem Permits.eq_of_error {e : Database.Error} (permits : t.Permits r (.error e) t') : t' = t := by
  cases permits
  rfl

theorem Permits.eq_of_isRead {answer : Except Database.Error r.Result} (permits : t.Permits r answer t')
    (read : r.isRead = true) : t' = t := by
  cases permits with
  | createUser | updateUser | updateNoUser | deleteUser | updatePassword | updateNoPassword | createSession |
    updateTokens | updateNoTokens | deleteSession | createGrant => cases read
  | _ => rfl

theorem exists_permits (t : Tables) (read : r.isRead = true) : ∃ value, t.Permits r (.ok value) t := by
  cases r with
  | findUser id => exact ⟨_, .findUser id⟩
  | findPassword id => exact ⟨_, .findPassword id⟩
  | findGrants => exact ⟨_, .findGrants⟩
  | findUserByEmail address =>
    by_cases held : ∃ id row, t.users.find? id = some row ∧ row.1.email = address
    · obtain ⟨id, row, found, same⟩ := held
      exact ⟨_, .findUserByEmail found same⟩
    · exact ⟨none, .findNoUserByEmail fun id row found same => held ⟨id, row, found, same⟩⟩
  | findSessionByToken type text =>
    by_cases held : ∃ id row, t.sessions.find? id = some row ∧ row.token type = text
    · obtain ⟨id, row, found, same⟩ := held
      exact ⟨_, .findSessionByToken "" found same⟩
    · exact ⟨none, .findNoSessionByToken fun id row found same => held ⟨id, row, found, same⟩⟩
  | findSession id =>
    cases found : t.sessions.find? id with
    | none => exact ⟨_, .findNoSession found⟩
    | some row => exact ⟨_, .findSession "" found⟩
  | _ => cases read

end Database.Tables

namespace Accounts

/-- Whether an operation ends with a value as it should be, or because the
database failed. -/
def Yields (fails : Prop) {α : Type} (outcome : Except Error α) (ok : α → Prop) : Prop :=
  (∃ value, outcome = .ok value ∧ ok value) ∨ fails ∧ ∃ e, outcome = .error (.database e)

namespace Calm

variable {a : Accounts} {c : Circumstances} {right told : Datum → Bytes → Prop} {taken : String → Prop}
  {held : List Cache.Lock} {t : Tables} {w : World} {d : Datum} {α : Type}

theorem database (calm : Calm a c right held t w) {r : Database.Request}
    (able : c.bounded → ∃ value t', t.Permits r (.ok value) t' ∧ (c.unique → t'.Unique)) :
    Ensures c (Operation.database r).run w fun outcome w' =>
      (c.fails r ∧ (∃ e, outcome = .error (.database e)) ∧ Calm a c right held t w') ∨
      ∃ value t', outcome = .ok value ∧ t.Permits r (.ok value) t' ∧ Calm a c right held t' w' := by
  refine ⟨fun bounded => ?_, ?_⟩
  · obtain ⟨value, t', permits, apart⟩ := able bounded
    rw [← calm.tables] at permits
    exact ⟨.ok value, _, w.clock, calm.roomy, .database permits (fun ⟨_, impossible⟩ => nomatch impossible) apart⟩
  · rintro answer w' ⟨later, roomy, serves⟩
    have calm := calm.advanceTo roomy
    cases serves with
    | other differ => exact absurd rfl (differ r)
    | @database _ _ t' permits fails apart =>
      rw [calm.tables] at permits
      have after : Calm a c right held t' { w.advanceTo later with tables := t' } := {
        reliable := ⟨calm.reliable.memory, calm.reliable.faultless⟩
        tables := rfl
        keyed := permits.keyed calm.keyed
        unique := apart
        modest := calm.modest
        roomy := calm.roomy
        entries := calm.entries
        guards := calm.guards }
      cases answer with
      | error e =>
        obtain rfl := permits.eq_of_error
        exact .inl ⟨fails ⟨e, rfl⟩, ⟨e, rfl⟩, after⟩
      | ok value => exact .inr ⟨value, t', rfl, permits, after⟩

theorem load (calm : Calm a c right held t w) {r : Database.Request} (read : r.isRead = true) :
    Ensures c (Operation.database r).run w fun outcome w' =>
      Yields (c.fails r) outcome (fun value => t.Permits r (.ok value) t) ∧ Calm a c right held t w' := by
  refine (calm.database fun _ => ?_).mono ?_
  · obtain ⟨value, permits⟩ := t.exists_permits read
    exact ⟨value, t, permits, calm.unique⟩
  · rintro outcome w' (⟨fails, error, after⟩ | ⟨value, t', rfl, permits, after⟩)
    · exact ⟨.inr ⟨fails, error⟩, after⟩
    · obtain rfl := permits.eq_of_isRead read
      exact ⟨.inl ⟨value, rfl, permits⟩, after⟩

/-- A read of a row yields what it should if it is right to record what the
database answers. -/
theorem readRow [Storable α] (calm : Calm a c right held t w) (free : ∀ lock ∈ held, lock.cacheKey ≠ d.key)
    {r : Database.Request} (read : r.isRead = true) {f : r.Result → Option α} {ok : Option α → Prop}
    (null : (Storable.ofJson? .null : Option α) = none) (faithful : ∀ value : α, Storable.Faithful value)
    (hits : ∀ bytes, right d bytes → ∃ found, ok found ∧ recorded? found = some bytes)
    (loads : ∀ value, t.Permits r (.ok value) t →
      ok (f value) ∧ ∀ bytes, recorded? (f value) = some bytes → right d bytes) :
    Ensures c (a.read d.key do
        let found ← Operation.database r
        a.fillFound d.key (f found)).run w fun outcome w' =>
      Yields (c.fails r) outcome ok ∧ Calm a c right held t w' := by
  refine calm.read free (fun bytes correct => ?_) fun lock w' own calm => ?_
  · obtain ⟨found, holds, recorded⟩ := hits bytes correct
    exact ⟨found, .inl ⟨found, rfl, holds⟩, decode_ofBytes d.key null (fun value _ => faithful value) recorded⟩
  · refine (calm.load read).andThen ?_ ?_
    · rintro value w' ⟨⟨_, ⟨⟩, permits⟩ | ⟨_, _, ⟨⟩⟩, calm⟩
      obtain ⟨holds, told⟩ := loads value permits
      refine (calm.fillFound told).mono ?_
      rintro _ w' ⟨rfl, calm⟩
      exact ⟨.inl ⟨_, rfl, holds⟩, calm⟩
    · rintro _ w' ⟨⟨_, ⟨⟩, _⟩ | ⟨fails, e, ⟨⟩⟩, calm⟩
      exact ⟨.inr ⟨fails, e, rfl⟩, calm⟩

theorem findsUser (calm : Calm a c (Datum.RightWith told c.unique taken t) held t w) (id : Uuid)
    (free : ∀ lock ∈ held, lock.cacheKey ≠ Datum.key (.user id)) :
    Ensures c (a.findUser id).run w fun outcome w' =>
      Yields (c.fails (.findUser id)) outcome (· = (t.users.find? id).map (·.1)) ∧
        Calm a c (Datum.RightWith told c.unique taken t) held t w' := by
  refine calm.readRow (d := .user id) (r := .findUser id) (f := fun found => found) free rfl rfl User.faithful
    (fun bytes correct => ⟨_, rfl, correct⟩) fun value permits => ?_
  cases permits
  exact ⟨rfl, fun _ recorded => recorded⟩

theorem findsPassword (calm : Calm a c (Datum.RightWith told c.unique taken t) held t w) (id : Uuid)
    (free : ∀ lock ∈ held, lock.cacheKey ≠ Datum.key (.password id)) :
    Ensures c (a.findPassword id).run w fun outcome w' =>
      Yields (c.fails (.findPassword id)) outcome (· = (t.users.find? id).map (·.2)) ∧
        Calm a c (Datum.RightWith told c.unique taken t) held t w' := by
  refine calm.readRow (d := .password id) (r := .findPassword id) (f := fun found => found) free rfl rfl
    String.faithful (fun bytes correct => ⟨_, rfl, correct⟩) fun value permits => ?_
  cases permits
  exact ⟨rfl, fun _ recorded => recorded⟩

theorem leads_of_permits {address : String} {found : Option User} (apart : t.Unique)
    (permits : t.Permits (.findUserByEmail address) (.ok found) t) : found = t.userWithEmail? address := by
  cases permits with
  | findUserByEmail held same => exact (apart.userWithEmail?_eq_some_iff.2 ⟨_, _, held, same⟩).symm
  | findNoUserByEmail none => exact (Tables.userWithEmail?_eq_none_iff.2 none).symm

theorem findsUserId (calm : Calm a c (Datum.RightWith told c.unique taken t) held t w) (address : String)
    (free : ∀ lock ∈ held, lock.cacheKey ≠ Datum.key (.email address)) :
    Ensures c (a.findUserId address).run w fun outcome w' =>
      Yields (c.fails (.findUserByEmail address)) outcome (fun found => c.unique → t.Leads taken address found) ∧
        Calm a c (Datum.RightWith told c.unique taken t) held t w' := by
  have null : (Storable.ofJson? .null : Option Uuid) = none := rfl
  refine calm.readRow (d := .email address) (r := .findUserByEmail address) (f := Option.map User.id) free
    rfl null Uuid.faithful (fun bytes correct => ?_) fun value permits => ?_
  · obtain ⟨found, recorded, leads⟩ := correct
    exact ⟨found, leads, recorded⟩
  · have leads : c.unique → t.Leads taken address (value.map (·.id)) := fun unique =>
      .inl (by rw [leads_of_permits (calm.unique unique) permits])
    exact ⟨leads, fun bytes recorded => ⟨_, recorded, leads⟩⟩

theorem findsUserByEmail (calm : Calm a c (Datum.RightWith told c.unique taken t) [] t w) (address : String) :
    Ensures c (a.findUserByEmail address).run w fun outcome w' =>
      Yields (c.fails (.findUserByEmail address) ∨ ∃ id, c.fails (.findUser id)) outcome
        (fun found => c.unique → t.Finds taken address found) ∧
        Calm a c (Datum.RightWith told c.unique taken t) [] t w' := by
  refine (calm.findsUserId address fun _ => nofun).andThen ?_ ?_
  · rintro found w' ⟨⟨_, ⟨⟩, leads⟩ | ⟨_, _, ⟨⟩⟩, calm⟩
    have finds := fun unique => Tables.Leads.finds (leads unique) calm.keyed (calm.unique unique)
    cases found with
    | none => exact ⟨.inl ⟨none, rfl, finds⟩, calm⟩
    | some id =>
      refine (calm.findsUser id fun _ => nofun).mono ?_
      rintro outcome w'' ⟨⟨_, rfl, rfl⟩ | ⟨fails, failed⟩, calm⟩
      · exact ⟨.inl ⟨_, rfl, finds⟩, calm⟩
      · exact ⟨.inr ⟨.inr ⟨id, fails⟩, failed⟩, calm⟩
  · rintro _ w' ⟨⟨_, ⟨⟩, _⟩ | ⟨fails, e, ⟨⟩⟩, calm⟩
    exact ⟨.inr ⟨.inl fails, e, rfl⟩, calm⟩

section

variable (unbounded : ¬c.bounded)

include unbounded

/-- A write goes to the database first. If the database refuses, it is over,
and nothing that is cached has become wrong. -/
theorem writeThen {β : Type} (calm : Calm a c right held t w) {r : Database.Request} {f : r.Result → Operation β}
    {post : Except Error β → World → Prop}
    (rest : ∀ value t' w', t.Permits r (.ok value) t' → Calm a c right held t' w' → Ensures c (f value).run w' post)
    (refused : ∀ e w', Calm a c right held t w' → post (.error (.database e)) w') :
    Ensures c (Operation.database r >>= f).run w post := by
  refine (calm.database fun bounded => absurd bounded unbounded).andThen ?_ ?_
  · rintro value w' (⟨_, ⟨_, ⟨⟩⟩, _⟩ | ⟨_, t', ⟨⟩, permits, calm⟩)
    exact rest value t' w' permits calm
  · rintro _ w' (⟨_, ⟨e, ⟨⟩⟩, calm⟩ | ⟨_, _, ⟨⟩, _⟩)
    exact refused e w' calm

theorem createsUser (calm : Calm a c (Datum.RightWith told c.unique taken t) [] t w) (user : User) (hash : String) :
    Ensures c (a.createUser user hash).run w fun _ w' => ∃ t', t'.sessions = t.sessions ∧
      Calm a c (Datum.RightWith told c.unique (fun address => taken address ∨ t.Lost t' address) t') [] t' w' := by
  refine calm.writeThen unbounded ?_ ?_
  · intro _ t' w' permits after
    cases permits with
    | @createUser _ _ row sameId sameEmail =>
      have keys : userKeys user.id user.email = row.data.map Datum.key := by
        rw [← sameId, ← sameEmail]
        rfl
      rw [keys]
      refine (after.invalidate row.data fun d bytes right => right.of_right
        (Datum.right_of_putUser calm.unique after.unique)).lift.mono ?_
      rintro _ w'' ⟨_, _, after⟩
      exact ⟨t.putUser row hash, rfl, after⟩
  · intro e w' after
    exact ⟨t, rfl, after.mono fun _ _ right => right.mono (fun _ => .inl) id⟩

/-- The user that an update yields is the row that the database put. The
update drops the user's copies before it reads the row again. -/
theorem updatesUser (calm : Calm a c (Datum.RightWith told c.unique taken t) [] t w) (user : User) :
    Ensures c (a.updateUser user).run w fun outcome w' => ∃ t', t'.sessions = t.sessions ∧
      (∀ found, outcome = .ok found → t.Permits (.updateUser user) (.ok found) t') ∧
      Calm a c (Datum.RightWith told c.unique (fun address => taken address ∨ t.Lost t' address) t') [] t' w' := by
  refine calm.writeThen unbounded ?_ ?_
  · intro found t' w' permits after
    cases found with
    | none =>
      have same : t' = t := by
        cases permits
        rfl
      subst same
      refine ⟨t', rfl, ?_, after.mono fun _ _ right => right.mono (fun _ => .inl) id⟩
      rintro _ ⟨⟩
      exact permits
    | some row =>
      have covers : ∀ d bytes, Datum.RightWith told c.unique taken t d bytes → d ∈ row.data ∨
          Datum.RightWith told c.unique (fun address => taken address ∨ t.Lost t' address) t' d bytes := by
        cases permits
        exact fun d bytes right => right.of_right (Datum.right_of_putUser calm.unique after.unique)
      have sessions : t'.sessions = t.sessions := by
        cases permits
        rfl
      have found : (t'.users.find? row.id).map (·.1) = some row := by
        cases permits
        rw [Tables.putUser, SortedMap.find?_insert_self, Option.map_some]
      -- The row that was put has the email that was given: what is dropped is under the keys of that row, and
      -- never under an email that the user had before.
      have dropped : Ensures c (a.invalidate (if user.email = row.email then userKeys row.id row.email
          else userKeys row.id row.email ++ [Key.email user.email])) w' fun _ w'' => Calm a c
            (Datum.RightWith told c.unique (fun address => taken address ∨ t.Lost t' address) t') [] t' w'' := by
        split
        · exact after.invalidate row.data covers
        · exact after.invalidate (row.data ++ [.email user.email]) fun d bytes right =>
            (covers d bytes right).imp_left (List.mem_append_left _)
      refine dropped.liftThen fun _ w'' after => (after.findsUser row.id (List.forall_mem_nil _)).mono ?_
      rintro outcome w ⟨yields, after⟩
      refine ⟨t', sessions, ?_, after⟩
      rintro _ rfl
      rcases yields with ⟨_, ⟨⟩, rfl⟩ | ⟨_, _, ⟨⟩⟩
      rw [found]
      exact permits
  · intro e w' after
    refine ⟨t, rfl, ?_, after.mono fun _ _ right => right.mono (fun _ => .inl) id⟩
    rintro _ ⟨⟩

theorem deletesUser (calm : Calm a c (Datum.RightWith told c.unique taken t) [] t w) (id : Uuid) :
    Ensures c (a.deleteUser id).run w fun _ w' => ∃ t', t'.sessions = t.sessions ∧
      Calm a c (Datum.RightWith told c.unique taken t') [] t' w' := by
  refine calm.writeThen unbounded ?_ ?_
  · intro found t' w' permits after
    cases permits
    have left : ∀ d bytes, Datum.Right c.unique taken t d bytes → d = .user id ∨ d = .password id ∨
        (∃ row, t.users.find? id = some row ∧ d = .email row.1.email) ∨
        Datum.Right c.unique taken { t with users := t.users.erase id } d bytes := fun d bytes =>
      Datum.right_of_eraseUser calm.unique after.unique
    cases held : t.users.find? id with
    | none =>
      have covers : ∀ d bytes, Datum.Right c.unique taken t d bytes → d ∈ [Datum.user id, .password id] ∨
          Datum.Right c.unique taken { t with users := t.users.erase id } d bytes := by
        intro d bytes right
        rcases left d bytes right with rfl | rfl | ⟨_, found, _⟩ | right
        · exact .inl (by simp)
        · exact .inl (by simp)
        · rw [held] at found
          cases found
        · exact .inr right
      exact (after.invalidate _ fun d bytes right => right.of_right (covers d bytes)).liftThen
        fun _ w'' after => ⟨{ t with users := t.users.erase id }, rfl, after⟩
    | some row =>
      obtain rfl := calm.keyed.users id row held
      have covers : ∀ d bytes, Datum.Right c.unique taken t d bytes → d ∈ row.1.data ∨
          Datum.Right c.unique taken { t with users := t.users.erase row.1.id } d bytes := by
        intro d bytes right
        rcases left d bytes right with rfl | rfl | ⟨_, found, rfl⟩ | right
        · exact .inl (by simp [User.data])
        · exact .inl (by simp [User.data])
        · rw [held] at found
          obtain rfl := Option.some.inj found
          exact .inl (by simp [User.data])
        · exact .inr right
      exact (after.invalidate _ fun d bytes right => right.of_right (covers d bytes)).liftThen
        fun _ w'' after => ⟨{ t with users := t.users.erase row.1.id }, rfl, after⟩
  · intro e w' after
    exact ⟨t, rfl, after⟩

theorem updatesPassword (calm : Calm a c (Datum.RightWith told c.unique taken t) [] t w) (id : Uuid) (hash : String) :
    Ensures c (a.updatePassword id hash).run w fun _ w' => ∃ t', t'.sessions = t.sessions ∧
      Calm a c (Datum.RightWith told c.unique taken t') [] t' w' := by
  refine calm.writeThen unbounded ?_ ?_
  · intro _ t' w' permits after
    have sessions : t'.sessions = t.sessions := by
      cases permits <;> rfl
    have covers : ∀ d bytes, Datum.Right c.unique taken t d bytes → d ∈ [Datum.password id, .user id] ∨
        Datum.Right c.unique taken t' d bytes := by
      cases permits with
      | updatePassword found own same =>
        subst own
        exact fun d bytes => Datum.right_of_putUser_of_email_eq calm.unique after.unique found
          (calm.keyed.users _ _ found) same
      | updateNoPassword => exact fun d bytes => .inr
    refine (after.invalidate [.password id, .user id] fun d bytes right => right.of_right (covers d bytes)).lift.mono ?_
    rintro _ w'' ⟨_, _, after⟩
    exact ⟨_, sessions, after⟩
  · intro e w' after
    exact ⟨t, rfl, after⟩

end

section

variable (calm : Calm a c (Datum.Right c.unique taken t) held t w)

include calm

theorem marked : Calm a c (Datum.RightWith (Datum.Marked (fun _ _ => False) True t) c.unique taken t) held t w :=
  calm.mono fun _ _ => Datum.Right.marked

theorem findUser (id : Uuid) (free : ∀ lock ∈ held, lock.cacheKey ≠ Datum.key (.user id)) :
    Ensures c (a.findUser id).run w fun outcome w' =>
      Yields (c.fails (.findUser id)) outcome (· = (t.users.find? id).map (·.1)) ∧
        Calm a c (Datum.Right c.unique taken t) held t w' :=
  (calm.marked.findsUser id free).mono fun _ _ =>
    .imp_right fun calm => calm.mono fun _ _ right => right.right rfl

theorem findPassword (id : Uuid) (free : ∀ lock ∈ held, lock.cacheKey ≠ Datum.key (.password id)) :
    Ensures c (a.findPassword id).run w fun outcome w' =>
      Yields (c.fails (.findPassword id)) outcome (· = (t.users.find? id).map (·.2)) ∧
        Calm a c (Datum.Right c.unique taken t) held t w' :=
  (calm.marked.findsPassword id free).mono fun _ _ =>
    .imp_right fun calm => calm.mono fun _ _ right => right.right rfl

end

theorem findUserByEmail (calm : Calm a c (Datum.Right c.unique taken t) [] t w) (address : String) :
    Ensures c (a.findUserByEmail address).run w fun outcome w' =>
      Yields (c.fails (.findUserByEmail address) ∨ ∃ id, c.fails (.findUser id)) outcome
        (fun found => c.unique → t.Finds taken address found) ∧
        Calm a c (Datum.Right c.unique taken t) [] t w' :=
  (calm.marked.findsUserByEmail address).mono fun _ _ =>
    .imp_right fun calm => calm.mono fun _ _ right => right.right rfl

theorem updateUser (unbounded : ¬c.bounded) (calm : Calm a c (Datum.Right c.unique taken t) [] t w) (user : User) :
    Ensures c (a.updateUser user).run w fun outcome w' => ∃ t',
      (∀ found, outcome = .ok found → t.Permits (.updateUser user) (.ok found) t') ∧
      Calm a c (Datum.Right c.unique (fun address => taken address ∨ t.Lost t' address) t') [] t' w' := by
  refine (calm.marked.updatesUser unbounded user).mono ?_
  rintro _ w' ⟨t', sessions, put, calm⟩
  exact ⟨t', put, calm.mono fun _ _ right => right.right sessions⟩

section

variable (unbounded : ¬c.bounded)

include unbounded

theorem attempts (calm : Calm a c right held t w) (address : String) {r : Cache.Request}
    (own : r.keys = [Key.loginAttempts address]) :
    Ensures c (Action.cache r) w fun _ w' => Calm a c right held t w' := by
  refine calm.aside (fun bounded => absurd bounded unbounded) (fun d named => ?_) fun key named => ?_
  · rw [own] at named
    exact d.key_ne_loginAttempts address (List.mem_singleton.1 named)
  · rw [own] at named
    exact Key.lock_ne_loginAttempts key address (List.mem_singleton.1 named)

theorem countLoginAttempt (calm : Calm a c right held t w) (address : String) :
    Ensures c (a.countLoginAttempt address).run w fun _ w' => Calm a c right held t w' := by
  have counted : Ensures c (a.cache.increment (Key.loginAttempts address)) w fun _ w' =>
      Calm a c right held t w' := by
    rw [Cache.Manager.increment]
    split
    · exact calm
    · exact calm.attempts unbounded address rfl
  have prolonged : ∀ w', Calm a c right held t w' →
      Ensures c (a.cache.expire (Key.loginAttempts address) a.login.lockTtl) w' fun _ w'' =>
        Calm a c right held t w'' := by
    intro w' calm
    rw [Cache.Manager.expire]
    split
    · exact calm
    · refine (calm.attempts unbounded address rfl).bind fun outcome w'' calm => ?_
      cases outcome with
      | ok | error => exact calm
  refine counted.cache.andThen ?_ fun _ w' ⟨_, _, calm⟩ => calm
  rintro count w' ⟨_, _, calm⟩
  refine (prolonged w' calm).cache.andThen ?_ fun _ w' ⟨_, _, calm⟩ => calm
  rintro _ w'' ⟨_, _, calm⟩
  exact calm

theorem isLoginLocked (calm : Calm a c right held t w) (address : String) :
    Ensures c (a.isLoginLocked address).run w fun _ w' => Calm a c right held t w' := by
  have asked : Ensures c (a.cache.lifetime (Key.loginAttempts address)) w fun _ w' =>
      Calm a c right held t w' := by
    rw [Cache.Manager.lifetime]
    split
    · exact calm
    · refine (calm.attempts unbounded address rfl).bind fun outcome w' calm => ?_
      cases outcome with
      | ok | error => exact calm
  have looked : ∀ w', Calm a c right held t w' →
      Ensures c (a.cache.get (Key.loginAttempts address)) w' fun _ w'' => Calm a c right held t w'' := by
    intro w' calm
    rw [Cache.Manager.get]
    split
    · exact calm
    · refine (calm.attempts unbounded address rfl).bind fun outcome w'' calm => ?_
      cases outcome with
      | ok => exact calm
      | error => exact (calm.warn _).bind fun _ _ calm => calm
  refine asked.cache.andThen ?_ fun _ w' ⟨_, _, calm⟩ => calm
  rintro lifetime w' ⟨_, _, calm⟩
  split
  · refine (looked w' calm).liftThen fun found w'' calm => ?_
    split
    · exact calm
    · exact calm
  · exact calm

end

end Calm

end Accounts

end AccountCache
