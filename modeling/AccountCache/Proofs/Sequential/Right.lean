import AccountCache.Proofs.Coherence.Copies
import AccountCache.Proofs.Sequential.Contract

namespace AccountCache

open Database (Tables)

/-- Whom an email may lead to: to its user, or to anyone once it was taken
from a user and nobody has it. -/
def Database.Tables.Leads (t : Tables) (taken : String → Prop) (address : String) (found : Option Uuid) : Prop :=
  found = (t.userWithEmail? address).map (·.id) ∨ taken address ∧ t.userWithEmail? address = none

/-- What may be found by an email: its user, or some other user once it was
taken from one and nobody has it. -/
def Database.Tables.Finds (t : Tables) (taken : String → Prop) (address : String) (found : Option User) : Prop :=
  found = t.userWithEmail? address ∨ taken address ∧ t.userWithEmail? address = none ∧
    ∃ user hash, found = some user ∧ t.users.find? user.id = some (user, hash) ∧ user.email ≠ address

theorem Database.Tables.Leads.finds {t : Tables} {taken : String → Prop} {address : String} {found : Option Uuid}
    (leads : t.Leads taken address found) (keyed : t.Keyed) (apart : t.Unique) :
    t.Finds taken address (found.bind fun id => (t.users.find? id).map (·.1)) := by
  rcases leads with rfl | ⟨once, nobody⟩
  · refine .inl ?_
    cases held : t.userWithEmail? address with
    | none => rfl
    | some user =>
      obtain ⟨id, hash, found, _⟩ := apart.userWithEmail?_eq_some_iff.1 held
      have own : user.id = id := keyed.users id _ found
      rw [Option.map_some, Option.bind_some, own, found, Option.map_some]
  · cases held : found.bind fun id => (t.users.find? id).map (·.1) with
    | none => exact .inl nobody.symm
    | some user =>
      obtain ⟨id, _, named⟩ := Option.bind_eq_some_iff.1 held
      obtain ⟨row, found, rfl⟩ := Option.map_eq_some_iff.1 named
      have own := keyed.users id row found
      exact .inr ⟨once, nobody, row.1, row.2, rfl, own ▸ found, userWithEmail?_eq_none_iff.1 nobody id row found⟩

/-- Whether an email was some user's and is nobody's. -/
def Database.Tables.Lost (t t' : Tables) (address : String) : Prop :=
  (∃ user, t.userWithEmail? address = some user) ∧ t'.userWithEmail? address = none

/-- Whether a session is one that the database holds, its role aside. -/
def Database.Tables.Holds (t : Tables) (s : Session) : Prop :=
  ∃ row role, t.sessions.find? s.id = some row ∧ s = { row with role }

def Database.Tables.Current (t : Tables) (s : Session) : Prop :=
  ∃ row, t.sessions.find? s.id = some row ∧ row.accessToken = s.accessToken ∧ row.refreshToken = s.refreshToken

/-- Whether bytes are right about what the database holds. Of an absent
session any mark is. An email has to lead to its user only if the database
keeps emails apart. -/
def Datum.Right (unique : Prop) (taken : String → Prop) (t : Tables) : Datum → Bytes → Prop
  | .user id, bytes => recorded? ((t.users.find? id).map (·.1)) = some bytes
  | .email address, bytes => ∃ found, recorded? found = some bytes ∧ (unique → t.Leads taken address found)
  | .password id, bytes => recorded? ((t.users.find? id).map (·.2)) = some bytes
  | .session id, bytes => bytes = Cache.nilBytes ∨
      ∃ s, t.Holds s ∧ s.id = id ∧ Storable.encode? s = some bytes
  | .token text, bytes => bytes = Cache.nilBytes ∨
      ∃ s, t.Holds s ∧ (∃ type, s.token type = text) ∧ Storable.encode? s = some bytes
  | .permission, _ => True

namespace Datum

variable {unique : Prop} {taken : String → Prop} {t t' : Tables} {d : Datum} {bytes : Bytes}

theorem Right.mono {taken' : String → Prop} (right : d.Right unique taken t bytes)
    (more : ∀ address, taken address → taken' address) : d.Right unique taken' t bytes := by
  cases d with
  | email address =>
    obtain ⟨found, recorded, leads⟩ := right
    exact ⟨found, recorded, fun apart => (leads apart).imp_right fun ⟨once, nobody⟩ => ⟨more address once, nobody⟩⟩
  | _ => exact right

/-- A change of one user's row makes nothing wrong but what is the user's
or was. What a new row, another password and a deletion leave right
follows from this. -/
theorem right_of_users {id : Uuid} (others : ∀ id', id ≠ id' → t'.users.find? id' = t.users.find? id')
    (sessions : t'.sessions = t.sessions) (apart : unique → t.Unique) (apart' : unique → t'.Unique)
    (right : d.Right unique taken t bytes) : d = .user id ∨ d = .password id ∨
      (∃ row, t'.users.find? id = some row ∧ d = .email row.1.email) ∨
      (∃ row, t.users.find? id = some row ∧ d = .email row.1.email) ∨ d.Right unique taken t' bytes := by
  cases d with
  | user id' =>
    by_cases same : id = id'
    · exact .inl (congrArg Datum.user same.symm)
    · refine .inr (.inr (.inr (.inr ?_)))
      rwa [Right, others id' same]
  | password id' =>
    by_cases same : id = id'
    · exact .inr (.inl (congrArg Datum.password same.symm))
    · refine .inr (.inr (.inr (.inr ?_)))
      rwa [Right, others id' same]
  | email address =>
    by_cases new : ∃ row, t'.users.find? id = some row ∧ row.1.email = address
    · obtain ⟨row, found, rfl⟩ := new
      exact .inr (.inr (.inl ⟨row, found, rfl⟩))
    · by_cases old : ∃ row, t.users.find? id = some row ∧ row.1.email = address
      · obtain ⟨row, found, rfl⟩ := old
        exact .inr (.inr (.inr (.inl ⟨row, found, rfl⟩)))
      · obtain ⟨found, recorded, leads⟩ := right
        refine .inr (.inr (.inr (.inr ⟨found, recorded, fun unique => ?_⟩)))
        -- An email of neither the old row nor the new one leads where it led before.
        have same : t'.userWithEmail? address = t.userWithEmail? address := by
          refine Option.ext fun user => ?_
          rw [(apart' unique).userWithEmail?_eq_some_iff, (apart unique).userWithEmail?_eq_some_iff]
          constructor
          · rintro ⟨id', hash, held, rfl⟩
            have differ : id ≠ id' := fun eq => new ⟨_, eq ▸ held, rfl⟩
            exact ⟨id', hash, others id' differ ▸ held, rfl⟩
          · rintro ⟨id', hash, held, rfl⟩
            have differ : id ≠ id' := fun eq => old ⟨_, eq ▸ held, rfl⟩
            exact ⟨id', hash, (others id' differ).symm ▸ held, rfl⟩
        rw [Tables.Leads, same]
        exact leads unique
  | session | token =>
    refine .inr (.inr (.inr (.inr ?_)))
    simpa only [Right, Tables.Holds, sessions] using right
  | permission => exact .inr (.inr (.inr (.inr trivial)))

/-- A user's new row makes wrong what is under its keys. An email that the
user had before may now lead to anyone. -/
theorem right_of_putUser {row : User} {hash : String} (apart : unique → t.Unique)
    (apart' : unique → (t.putUser row hash).Unique) (right : d.Right unique taken t bytes) :
    d ∈ row.data ∨
      d.Right unique (fun address => taken address ∨ t.Lost (t.putUser row hash) address) (t.putUser row hash)
        bytes := by
  have put : (t.putUser row hash).users.find? row.id = some (row, hash) := SortedMap.find?_insert_self ..
  have others : ∀ id, row.id ≠ id → (t.putUser row hash).users.find? id = t.users.find? id := fun _ =>
    Tables.find?_users_putUser
  rcases right_of_users others rfl apart apart' right with rfl | rfl | ⟨_, found, rfl⟩ | ⟨old, found, rfl⟩ | right
  · exact .inl (by simp [User.data])
  · exact .inl (by simp [User.data])
  · rw [put] at found
    obtain rfl := Option.some.inj found
    exact .inl (by simp [User.data])
  · by_cases same : row.email = old.1.email
    · exact .inl (by simp [User.data, same])
    · obtain ⟨someone, recorded, _⟩ := right
      refine .inr ⟨someone, recorded, fun unique => .inr ?_⟩
      have held := (apart unique).userWithEmail?_eq_some_iff.2 ⟨row.id, old.2, found, rfl⟩
      -- The old email was this user's alone.
      have nobody : (t.putUser row hash).userWithEmail? old.1.email = none := by
        refine Tables.userWithEmail?_eq_none_iff.2 fun id other held' eq => ?_
        by_cases own : row.id = id
        · subst own
          rw [put] at held'
          obtain rfl := Option.some.inj held'
          exact same eq
        · rw [others id own] at held'
          exact own (apart unique row.id id old other found held' eq.symm)
      exact ⟨.inr ⟨⟨_, held⟩, nobody⟩, nobody⟩
  · exact .inr (right.mono fun _ => .inl)

/-- With its email a user keeps what the email leads to. -/
theorem right_of_putUser_of_email_eq {row : User} {hash : String} {old : User × String} (apart : unique → t.Unique)
    (apart' : unique → (t.putUser row hash).Unique) (found : t.users.find? row.id = some old)
    (keyed : old.1.id = row.id) (same : row.email = old.1.email) (right : d.Right unique taken t bytes) :
    d ∈ [.password row.id, .user row.id] ∨ d.Right unique taken (t.putUser row hash) bytes := by
  have put : (t.putUser row hash).users.find? row.id = some (row, hash) := SortedMap.find?_insert_self ..
  have others : ∀ id, row.id ≠ id → (t.putUser row hash).users.find? id = t.users.find? id := fun _ =>
    Tables.find?_users_putUser
  have kept : ∀ bytes, (Datum.email row.email).Right unique taken t bytes →
      (Datum.email row.email).Right unique taken (t.putUser row hash) bytes := by
    rintro bytes ⟨someone, recorded, leads⟩
    refine ⟨someone, recorded, fun unique => ?_⟩
    have before := (apart unique).userWithEmail?_eq_some_iff.2 ⟨row.id, old.2, found, same.symm⟩
    have after := (apart' unique).userWithEmail?_eq_some_iff.2 ⟨row.id, hash, put, rfl⟩
    rcases leads unique with rfl | ⟨_, nobody⟩
    · exact .inl (by rw [before, after, Option.map_some, Option.map_some, keyed])
    · rw [before] at nobody
      cases nobody
  rcases right_of_users others rfl apart apart' right with rfl | rfl | ⟨_, found', rfl⟩ | ⟨_, found', rfl⟩ | right
  · exact .inl (by simp)
  · exact .inl (by simp)
  · rw [put] at found'
    obtain rfl := Option.some.inj found'
    exact .inr (kept bytes right)
  · rw [found] at found'
    obtain rfl := Option.some.inj found'
    rw [← same] at right ⊢
    exact .inr (kept bytes right)
  · exact .inr right

/-- What is left of a user who goes is under the user's keys. -/
theorem right_of_eraseUser {id : Uuid} (apart : unique → t.Unique)
    (apart' : unique → { t with users := t.users.erase id }.Unique) (right : d.Right unique taken t bytes) :
    d = .user id ∨ d = .password id ∨ (∃ row, t.users.find? id = some row ∧ d = .email row.1.email) ∨
      d.Right unique taken { t with users := t.users.erase id } bytes := by
  have gone : (t.users.erase id).find? id = none := by rw [SortedMap.find?_erase, if_pos rfl]
  have others : ∀ id', id ≠ id' → { t with users := t.users.erase id }.users.find? id' = t.users.find? id' :=
    fun id' differ => by rw [SortedMap.find?_erase, if_neg differ]
  rcases right_of_users others rfl apart apart' right with rfl | rfl | ⟨_, found, _⟩ | old | right
  · exact .inl rfl
  · exact .inr (.inl rfl)
  · rw [gone] at found
    cases found
  · exact .inr (.inr (.inl old))
  · exact .inr (.inr (.inr right))

/-- Whether bytes are right, where `told` says what is right
of a session. -/
def RightWith (told : Datum → Bytes → Prop) (unique : Prop) (taken : String → Prop) (t : Tables) :
    Datum → Bytes → Prop
  | .session id, bytes => told (.session id) bytes
  | .token text, bytes => told (.token text) bytes
  | .user id, bytes => (user id).Right unique taken t bytes
  | .email address, bytes => (email address).Right unique taken t bytes
  | .password id, bytes => (password id).Right unique taken t bytes
  | .permission, _ => True

section

variable {told told' : Datum → Bytes → Prop} {taken' : String → Prop} {dropped : Prop}

theorem RightWith.mono (right : d.RightWith told unique taken t bytes)
    (more : ∀ address, taken address → taken' address) (weaker : told d bytes → told' d bytes) :
    d.RightWith told' unique taken' t bytes := by
  cases d with
  | session | token => exact weaker right
  | email address => exact Right.mono (d := email address) right more
  | user | password | permission => exact right

theorem RightWith.of_right (right : d.RightWith told unique taken t bytes)
    (covers : d.Right unique taken t bytes → dropped ∨ d.Right unique taken' t' bytes) :
    dropped ∨ d.RightWith told unique taken' t' bytes := by
  cases d with
  | session | token => exact .inr right
  | user | email | password | permission => exact covers right

theorem RightWith.of_users_eq (users : t'.users = t.users) (right : d.RightWith told unique taken t bytes)
    (covers : told d bytes → dropped ∨ told' d bytes) : dropped ∨ d.RightWith told' unique taken t' bytes := by
  cases d with
  | session | token => exact covers right
  | user | password => exact .inr (by rwa [RightWith, Right, users])
  | email =>
    have email : ∀ address, t'.userWithEmail? address = t.userWithEmail? address := fun address => by
      rw [Tables.userWithEmail?, Tables.userWithEmail?, users]
    exact .inr (by simpa only [RightWith, Right, Tables.Leads, email] using right)
  | permission => exact .inr trivial

end

end Datum

/-- Whether no session is kept under a type by a token. -/
def Database.Tables.Lacks (t : Tables) (type : TokenType) (text : String) : Prop :=
  ∀ id row, t.sessions.find? id = some row → row.token type ≠ text

/-- Whether bytes are right of a session, where a mark stands under a token
only if the token was asked for under a type under which no session has it.
What happens if some session cannot be written is left open. -/
def Datum.Marked (asked : String → TokenType → Prop) (unable : Prop) (t : Tables) : Datum → Bytes → Prop
  | .session id, bytes => bytes = Cache.nilBytes ∨ ∃ s, t.Holds s ∧ s.id = id ∧ Storable.encode? s = some bytes
  | .token text, bytes => (bytes = Cache.nilBytes ∧ (unable ∨ ∃ type, asked text type ∧ t.Lacks type text)) ∨
      ∃ s, t.Holds s ∧ (∃ type, s.token type = text) ∧ Storable.encode? s = some bytes
  | _, _ => True

namespace Database.Tables

variable {t t' : Tables} {s : Session} {id : Int} {d : Datum}

theorem Holds.of_others (holds : t.Holds s)
    (others : ∀ id', id ≠ id' → t'.sessions.find? id' = t.sessions.find? id') (differ : s.id ≠ id) : t'.Holds s := by
  obtain ⟨row, role, found, same⟩ := holds
  exact ⟨row, role, (others s.id fun eq => differ eq.symm).trans found, same⟩

theorem Holds.mem_data (holds : t.Holds s) (own : d ∈ s.data) :
    ∃ old, t.sessions.find? s.id = some old ∧ d ∈ old.data := by
  obtain ⟨row, role, found, same⟩ := holds
  refine ⟨row, found, ?_⟩
  rw [same] at own
  exact own

theorem mem_data_of_token {type : TokenType} : Datum.token (s.token type) ∈ s.data := by
  cases type with
  | access => exact List.mem_cons_self ..
  | refresh => exact List.mem_cons_of_mem _ (List.mem_cons_of_mem _ (List.mem_cons_self ..))

end Database.Tables

namespace Datum

variable {asked : String → TokenType → Prop} {unable unique : Prop} {taken : String → Prop} {t t' : Tables}
  {d : Datum} {bytes : Bytes}

theorem Marked.mono {asked' : String → TokenType → Prop} {unable' : Prop} (marked : d.Marked asked unable t bytes)
    (more : ∀ text type, asked text type → asked' text type) (able : unable → unable') :
    d.Marked asked' unable' t bytes := by
  cases d with
  | token text =>
    exact marked.imp_left (.imp_right (.imp able fun ⟨type, asks, lacks⟩ => ⟨type, more text type asks, lacks⟩))
  | _ => exact marked

theorem Marked.of_sessions_eq (marked : d.Marked asked unable t bytes) (sessions : t'.sessions = t.sessions) :
    d.Marked asked unable t' bytes := by
  cases d with
  | session | token => simpa only [Marked, Tables.Holds, Tables.Lacks, sessions] using marked
  | _ => trivial

theorem Right.marked (right : d.Right unique taken t bytes) :
    d.RightWith (Marked asked True t) unique taken t bytes := by
  cases d with
  | token => exact right.imp_left fun mark => ⟨mark, .inl trivial⟩
  | permission => trivial
  | _ => exact right

theorem RightWith.right (right : d.RightWith (Marked asked unable t) unique taken t' bytes)
    (sessions : t'.sessions = t.sessions) : d.Right unique taken t' bytes := by
  have right : d.RightWith (Marked asked unable t') unique taken t' bytes :=
    right.mono (fun _ => id) fun marked => marked.of_sessions_eq sessions
  cases d with
  | token => exact Or.imp_left And.left right
  | _ => exact right

/-- A change of one session's row makes nothing wrong but what is under
the keys of the old row, and marks under the keys of the new one, if
marks count. -/
theorem marked_of_sessions {id : Int}
    (others : ∀ id', id ≠ id' → t'.sessions.find? id' = t.sessions.find? id') (marked : d.Marked asked unable t bytes) :
    (∃ old, t.sessions.find? id = some old ∧ d ∈ old.data) ∨
      (¬unable ∧ ∃ new, t'.sessions.find? id = some new ∧ d ∈ new.data) ∨ d.Marked asked unable t' bytes := by
  have kept : ∀ {s}, t.Holds s → d ∈ s.data →
      (∃ old, t.sessions.find? id = some old ∧ d ∈ old.data) ∨ t'.Holds s := by
    intro s holds own
    by_cases same : s.id = id
    · subst same
      exact .inl (holds.mem_data own)
    · exact .inr (holds.of_others others same)
  cases d with
  | session id' =>
    rcases marked with mark | ⟨s, holds, rfl, encoded⟩
    · exact .inr (.inr (.inl mark))
    · rcases kept holds (by simp [Session.data]) with old | holds
      · exact .inl old
      · exact .inr (.inr (.inr ⟨s, holds, rfl, encoded⟩))
  | token text =>
    rcases marked with ⟨mark, excuse⟩ | ⟨s, holds, ⟨type, rfl⟩, encoded⟩
    · by_cases able : unable
      · exact .inr (.inr (.inl ⟨mark, .inl able⟩))
      obtain ⟨type, asks, lacks⟩ := excuse.resolve_left able
      by_cases new : ∃ new, t'.sessions.find? id = some new ∧ new.token type = text
      · obtain ⟨new, found, rfl⟩ := new
        exact .inr (.inl ⟨able, new, found, Tables.mem_data_of_token⟩)
      · refine .inr (.inr (.inl ⟨mark, .inr ⟨type, asks, fun id' row found same => ?_⟩⟩))
        by_cases own : id = id'
        · subst own
          exact new ⟨row, found, same⟩
        · exact lacks id' row ((others id' own).symm.trans found) same
    · rcases kept holds Tables.mem_data_of_token with old | holds
      · exact .inl old
      · exact .inr (.inr (.inr ⟨s, holds, ⟨type, rfl⟩, encoded⟩))
  | user | email | password | permission => exact .inr (.inr trivial)

/-- Whoever gives a session as the database holds it knows the keys
of its row. -/
theorem marked_of_current (t' : Tables) {s : Session} (keyed : t.Keyed) (current : t.Current s)
    (others : ∀ id, s.id ≠ id → t'.sessions.find? id = t.sessions.find? id) (marked : d.Marked asked unable t bytes) :
    d ∈ s.data ∨ (∃ new, t'.sessions.find? s.id = some new ∧ d ∈ new.data) ∨ d.Marked asked unable t' bytes := by
  obtain ⟨row, found, access, refresh⟩ := current
  refine (marked_of_sessions others marked).imp ?_ (.imp_left And.right)
  rintro ⟨old, found', own⟩
  rw [found] at found'
  obtain rfl := Option.some.inj found'
  rwa [Session.data, access, refresh, (keyed.sessions s.id row found).1] at own

end Datum

end AccountCache
