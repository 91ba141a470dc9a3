import AccountCache.Accounts.Permissions
import AccountCache.Accounts.Sessions
import AccountCache.Proofs.Coherence.Copies

namespace AccountCache

open Database (Tables)

/-- What the database guarantees of its tables: rows are kept under their
ids, and ids of sessions are never given twice. -/
structure Database.Tables.Sound (t : Tables) : Prop where
  users : ∀ id row, t.users.find? id = some row → row.1.id = id
  sessions : ∀ id row, t.sessions.find? id = some row → row.id = id ∧ id ≤ t.sessionCount

namespace Database.Tables

theorem id_of_find?_putUser {t : Tables} {user : User} {hash : String}
    (kept : ∀ id row, t.users.find? id = some row → row.1.id = id) {id : Uuid} {row : User × String}
    (found : (t.putUser user hash).users.find? id = some row) : row.1.id = id := by
  simp only [Tables.putUser, SortedMap.find?_insert] at found
  split at found
  · next same =>
    obtain rfl := Option.some.inj found
    exact same
  · exact kept id row found

theorem Sound.putUser {t : Tables} (sound : t.Sound) (user : User) (hash : String) :
    (t.putUser user hash).Sound where
  users _ _ := id_of_find?_putUser sound.users
  sessions := sound.sessions

theorem sound_empty : Sound {} := ⟨fun _ _ => nofun, fun _ _ => nofun⟩

/-- No request breaks what the database guarantees. Readers and writers
alike may rely on it from the first step on. -/
theorem Sound.serve {t : Tables} (sound : t.Sound) (now : Timestamp) (r : Database.Request) :
    (t.serve now r).2.Sound := by
  cases r with
  | createUser user hash =>
    simp only [Tables.serve]
    split
    · exact sound
    · exact sound.putUser user hash
  | updateUser user =>
    simp only [Tables.serve, Tables.updateUser]
    split
    · exact sound
    · exact sound.putUser _ _
  | deleteUser id =>
    refine ⟨fun id' row found => ?_, sound.sessions⟩
    simp only [Tables.serve, SortedMap.find?_erase] at found
    split at found
    · cases found
    · exact sound.users id' row found
  | updatePassword id hash =>
    simp only [Tables.serve]
    split
    · exact sound.putUser _ hash
    · exact sound
  | createSession s =>
    refine ⟨sound.users, fun id row found => ?_⟩
    simp only [Tables.serve, addSession, SortedMap.find?_insert] at found ⊢
    split at found
    · next same =>
      obtain rfl := Option.some.inj found
      exact ⟨same, by omega⟩
    · have old := sound.sessions id row found
      exact ⟨old.1, by omega⟩
  | updateTokens id tokens =>
    simp only [Tables.serve, Tables.updateTokens]
    split
    · exact sound
    · next row found =>
      have old := sound.sessions id row found
      obtain rfl := old.1
      refine ⟨sound.users, fun id' row' found' => ?_⟩
      rw [SortedMap.find?_insert] at found'
      split at found'
      · next same =>
        obtain rfl := Option.some.inj found'
        exact ⟨same, same ▸ old.2⟩
      · exact sound.sessions id' row' found'
  | deleteSession id =>
    refine ⟨sound.users, fun id' row found => ?_⟩
    simp only [Tables.serve, SortedMap.find?_erase] at found
    split at found
    · cases found
    · exact sound.sessions id' row found
  | createGrant g =>
    simp only [Tables.serve, addGrant]
    split
    · exact sound
    · exact ⟨sound.users, sound.sessions⟩
  | findUser | findUserByEmail | findPassword | findSessionByToken | findSession | findGrants => exact sound

theorem serve_of_isRead (t : Tables) (now : Timestamp) {r : Database.Request} (read : r.isRead = true) :
    (t.serve now r).2 = t := by
  cases r with
  | findUser | findUserByEmail | findPassword | findSessionByToken | findSession | findGrants => rfl
  | _ => cases read

theorem userWithEmail?_putUser {t : Tables} {user : User} {hash address : String}
    (new : user.email ≠ address) (old : ∀ row, t.users.find? user.id = some row → row.1.email ≠ address) :
    (t.putUser user hash).userWithEmail? address = t.userWithEmail? address := by
  have misses : ((user, hash).1.email == address) = false := beq_eq_false_iff_ne.2 new
  rw [userWithEmail?, userWithEmail?, Tables.putUser]
  rw [SortedMap.find?_values_insert t.users misses fun row found => beq_eq_false_iff_ne.2 (old row found)]

theorem find?_users_putUser {t : Tables} {user : User} {hash : String} {id : Uuid} (differ : user.id ≠ id) :
    (t.putUser user hash).users.find? id = t.users.find? id := by
  rw [Tables.putUser, SortedMap.find?_insert, if_neg differ]

theorem userWithEmail?_eq (t : Tables) (address : String) :
    t.userWithEmail? address = (t.users.values.map Prod.fst).find? (·.email == address) := by
  rw [userWithEmail?, List.find?_map]
  rfl

/-- A row is among the sessions after one is added if it is that one
or was there. -/
theorem Sound.mem_addSession {t : Tables} (sound : t.Sound) (s : Session) {row : Session} :
    row ∈ (t.addSession s).2.sessions.values ↔ row = (t.addSession s).1 ∨ row ∈ t.sessions.values := by
  rw [addSession, SortedMap.mem_values_insert, SortedMap.mem_values_iff]
  refine or_congr_right ⟨fun ⟨id, _, found⟩ => ⟨id, found⟩, fun ⟨id, found⟩ => ⟨id, fun same => ?_, found⟩⟩
  have old := (sound.sessions id row found).2
  have new : (t.sessionCount : Int) + 1 = id := same
  omega

end Database.Tables

namespace Accounts

/-- The writes of accounts, but for those of sessions that are there. -/
inductive Write where
  | createUser (user : User) (hash : String)
  | updateUser (user : User)
  | deleteUser (id : Uuid)
  | updatePassword (id : Uuid) (hash : String)
  | createSession (session : Session)
  | createGrant (grant : Grant)

namespace Write

def request : Write → Database.Request
  | createUser user hash => .createUser user hash
  | updateUser user => .updateUser user
  | deleteUser id => .deleteUser id
  | updatePassword id hash => .updatePassword id hash
  | createSession session => .createSession session
  | createGrant grant => .createGrant grant

theorem isRead_request (w : Write) : w.request.isRead = false := by
  cases w with
  | createUser | updateUser | deleteUser | updatePassword | createSession | createGrant => rfl

/-- What the keys stand for that a write drops or refills once the database
has answered. -/
def affected : (w : Write) → w.request.Result → List Datum
  | createUser user _, _ => user.data
  | updateUser _, none => []
  | updateUser user, some (row : User) =>
    if user.email = row.email then row.data else row.data ++ [.email user.email]
  | deleteUser id, none => [.user id, .password id]
  | deleteUser _, some (row : User) => row.data
  | updatePassword id _, _ => [.password id, .user id]
  | createSession _, (row : Session) => if (Storable.encode? row).isSome then row.data else []
  | createGrant _, _ => [.permission]

/-- What a write changes without dropping it: what an email led to that is a
user's no more, and a session that cannot be cached. -/
def Overlooks (t : Tables) : Write → Datum → Prop
  | createUser user _, d => ∃ row, t.users.find? user.id = some row ∧ d = .email row.1.email ∧
      row.1.email ≠ user.email
  | updateUser user, d => ∃ row, t.users.find? user.id = some row ∧ d = .email row.1.email ∧
      row.1.email ≠ user.email ∧ row.1.email ≠ user.email.map Char.toLower
  | createSession s, d => Storable.encode? (t.addSession s).1 = none ∧ d ∈ (t.addSession s).1.data
  | _, _ => False

variable {t t' : Tables} {now : Timestamp} {d : Datum}

/-- A user's row changes nothing but what is the user's, and what the email
leads to that the row had before. -/
theorem keeps_putUser (user : User) (hash : String) (d : Datum) : d ∈ user.data ∨
    (∃ row, t.users.find? user.id = some row ∧ d = .email row.1.email ∧ row.1.email ≠ user.email) ∨
    d.Keeps t (t.putUser user hash) := by
  cases d with
  | user id =>
    by_cases same : user.id = id
    · exact .inl (by simp [User.data, same])
    · exact .inr (.inr (congrArg (Option.map _) (Tables.find?_users_putUser same)))
  | password id =>
    by_cases same : user.id = id
    · exact .inl (by simp [User.data, same])
    · exact .inr (.inr (congrArg (Option.map _) (Tables.find?_users_putUser same)))
  | email address =>
    by_cases new : user.email = address
    · exact .inl (by simp [User.data, new])
    · by_cases lost : ∃ row, t.users.find? user.id = some row ∧ row.1.email = address
      · obtain ⟨row, found, rfl⟩ := lost
        exact .inr (.inl ⟨row, found, rfl, fun eq => new eq.symm⟩)
      · exact .inr (.inr (Tables.userWithEmail?_putUser new fun row found eq => lost ⟨row, found, eq⟩))
  | session | token => exact .inr (.inr fun _ _ => Iff.rfl)
  | permission => exact .inr (.inr rfl)

theorem keeps_createUser (user : User) (hash : String) {answer : Unit}
    (served : t.serve now (.createUser user hash) = (.ok answer, t')) (d : Datum) :
    d ∈ user.data ∨ (createUser user hash).Overlooks t d ∨ d.Keeps t t' := by
  rw [Tables.serve] at served
  split at served
  · cases served
  · obtain ⟨_, rfl⟩ := Prod.mk.inj served
    exact keeps_putUser user hash d

theorem keeps_updateUser (user : User) {answer : Option User}
    (served : t.serve now (.updateUser user) = (.ok answer, t')) (d : Datum) :
    d ∈ (updateUser user).affected answer ∨ (updateUser user).Overlooks t d ∨ d.Keeps t t' := by
  simp only [Tables.serve, Tables.updateUser] at served
  split at served
  · cases served
    exact .inr (.inr (Datum.Keeps.refl t d))
  · next old hash found =>
    cases served
    rcases keeps_putUser (t := t) { user with email := user.email.map Char.toLower, updatedAt := now } hash d
      with own | ⟨row, found', rfl, differ⟩ | keeps
    · refine .inl ?_
      rw [affected]
      split
      · exact own
      · exact List.mem_append_left _ own
    · by_cases given : row.1.email = user.email
      · refine .inl ?_
        rw [affected]
        split
        · next same => exact absurd (given.trans same) differ
        · exact List.mem_append_right _ (by rw [given]; exact List.mem_singleton_self _)
      · exact .inr (.inl ⟨row, found', rfl, given, differ⟩)
    · exact .inr (.inr keeps)

theorem keeps_deleteUser (sound : t.Sound) (id : Uuid) {answer : Option User}
    (served : t.serve now (.deleteUser id) = (.ok answer, t')) (d : Datum) :
    d ∈ (deleteUser id).affected answer ∨ d.Keeps t t' := by
  cases served
  have gone : ∀ id', id ≠ id' → (t.users.erase id).find? id' = t.users.find? id' := fun id' differ => by
    rw [SortedMap.find?_erase, if_neg differ]
  have own : .user id ∈ (deleteUser id).affected ((t.users.find? id).map (·.1)) ∧
      .password id ∈ (deleteUser id).affected ((t.users.find? id).map (·.1)) := by
    cases found : t.users.find? id with
    | none => simp [affected]
    | some row => simp [affected, User.data, sound.users id row found]
  cases d with
  | user id' =>
    by_cases same : id = id'
    · exact .inl (same ▸ own.1)
    · exact .inr (congrArg (Option.map _) (gone id' same))
  | password id' =>
    by_cases same : id = id'
    · exact .inl (same ▸ own.2)
    · exact .inr (congrArg (Option.map _) (gone id' same))
  | email address =>
    by_cases held : ∃ row, t.users.find? id = some row ∧ row.1.email = address
    · obtain ⟨row, found, rfl⟩ := held
      exact .inl (by simp [found, affected, User.data])
    · refine .inr (congrArg (Option.map _) (SortedMap.find?_values_erase _ fun row found => ?_))
      exact beq_eq_false_iff_ne.2 fun same => held ⟨row, found, same⟩
  | session | token => exact .inr fun _ _ => Iff.rfl
  | permission => exact .inr rfl

theorem keeps_updatePassword (sound : t.Sound) (id : Uuid) (hash : String) {answer : Unit}
    (served : t.serve now (.updatePassword id hash) = (.ok answer, t')) (d : Datum) :
    d ∈ (updatePassword id hash).affected answer ∨ d.Keeps t t' := by
  rw [Tables.serve] at served
  split at served
  · next user old found =>
    obtain ⟨_, rfl⟩ := Prod.mk.inj served
    obtain rfl := sound.users id _ found
    cases d with
    | user id' =>
      by_cases same : user.id = id'
      · exact .inl (by simp [affected, same])
      · exact .inr (congrArg (Option.map _) (Tables.find?_users_putUser same))
    | password id' =>
      by_cases same : user.id = id'
      · exact .inl (by simp [affected, same])
      · exact .inr (congrArg (Option.map _) (Tables.find?_users_putUser same))
    | email address =>
      refine .inr ?_
      simp only [Datum.Keeps, Tables.userWithEmail?_eq, Tables.putUser]
      rw [SortedMap.map_values_insert t.users (v := (user, hash)) Prod.fst found rfl]
    | session | token => exact .inr fun _ _ => Iff.rfl
    | permission => exact .inr rfl
  · cases served
    exact .inr (Datum.Keeps.refl t d)

theorem keeps_createSession (sound : t.Sound) (s : Session) {answer : Session}
    (served : t.serve now (.createSession s) = (.ok answer, t')) (d : Datum) :
    d ∈ (createSession s).affected answer ∨ (createSession s).Overlooks t d ∨ d.Keeps t t' := by
  cases served
  by_cases own : d ∈ (t.addSession s).1.data
  · cases encoded : Storable.encode? (t.addSession s).1 with
    | none => exact .inr (.inl ⟨encoded, own⟩)
    | some bytes =>
      refine .inl ?_
      have able : (Storable.encode? (t.addSession s).1).isSome = true := by rw [encoded, Option.isSome_some]
      show d ∈ if (Storable.encode? (t.addSession s).1).isSome then (t.addSession s).1.data else []
      rwa [if_pos able]
  · refine .inr (.inr ?_)
    simp only [Session.data, List.mem_cons, List.not_mem_nil, or_false, not_or] at own
    cases d with
    | session id =>
      rintro row rfl
      refine sound.mem_addSession s |>.trans (or_iff_right ?_)
      rintro rfl
      exact own.2.1 rfl
    | token text =>
      rintro row ⟨type, rfl⟩
      refine sound.mem_addSession s |>.trans (or_iff_right ?_)
      rintro rfl
      cases type with
      | access => exact own.1 rfl
      | refresh => exact own.2.2 rfl
    | user | email | password | permission => rfl

theorem keeps_createGrant (g : Grant) {answer : Unit}
    (served : t.serve now (.createGrant g) = (.ok answer, t')) (d : Datum) :
    d ∈ (createGrant g).affected answer ∨ d.Keeps t t' := by
  cases served
  have users : (t.addGrant g).users = t.users := by
    rw [Tables.addGrant]
    split <;> rfl
  have sessions : (t.addGrant g).sessions = t.sessions := by
    rw [Tables.addGrant]
    split <;> rfl
  cases d with
  | permission => exact .inl (List.mem_singleton_self _)
  | user | password =>
    refine .inr ?_
    simp only [Datum.Keeps, users]
  | email =>
    refine .inr ?_
    simp only [Datum.Keeps, Tables.userWithEmail?, users]
  | session | token =>
    refine .inr fun row _ => ?_
    rw [sessions]

/-- A write changes what the keys stand for that it drops or refills, and
hardly anything else: what it overlooks is an email that the user no longer
has, and a session that cannot be cached. -/
theorem keeps_of_serve (w : Write) (sound : t.Sound) {answer : w.request.Result}
    (served : t.serve now w.request = (.ok answer, t')) (d : Datum) :
    d ∈ w.affected answer ∨ w.Overlooks t d ∨ d.Keeps t t' := by
  cases w with
  | createUser user hash => exact keeps_createUser user hash served d
  | updateUser user => exact keeps_updateUser user served d
  | deleteUser id => exact (keeps_deleteUser sound id served d).imp_right .inr
  | updatePassword id hash => exact (keeps_updatePassword sound id hash served d).imp_right .inr
  | createSession s => exact keeps_createSession sound s served d
  | createGrant g => exact (keeps_createGrant g served d).imp_right .inr

theorem eq_of_serve_error (w : Write) {e : Database.Error}
    (served : t.serve now w.request = (.error e, t')) : t' = t := by
  cases w with
  | createUser user hash =>
    rw [request, Tables.serve] at served
    split at served
    · exact (Prod.mk.inj served).2.symm
    · cases served
  | updatePassword id hash =>
    rw [request, Tables.serve] at served
    split at served <;> cases served
  | updateUser | deleteUser | createSession | createGrant => cases served

end Write

end Accounts

end AccountCache
