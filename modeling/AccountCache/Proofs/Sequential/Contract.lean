import AccountCache.Proofs.Coherence.Writes

namespace AccountCache

namespace Database.Tables

/-- Whether rows are kept under their ids, and ids of sessions
have 64 bits. -/
structure Keyed (t : Tables) : Prop where
  users : ∀ id row, t.users.find? id = some row → row.1.id = id
  sessions : ∀ id row, t.sessions.find? id = some row → row.id = id ∧ minInt64 ≤ id ∧ id ≤ maxInt64

/-- Whether no two users have one email. -/
def Unique (t : Tables) : Prop :=
  ∀ id id' row row', t.users.find? id = some row → t.users.find? id' = some row' → row.1.email = row'.1.email →
    id = id'

def putSession (t : Tables) (row : Session) : Tables := { t with sessions := t.sessions.insert row.id row }

/-- How a request may be answered, and what is held then. A refused request
changes nothing, a read tells what is there, and a write changes the row
that it names; what else a database puts into a row is its own affair. -/
inductive Permits (t : Tables) : (r : Request) → Except Error r.Result → Tables → Prop
  | fail {r} (e) : t.Permits r (.error e) t
  | createUser {user hash} {row : User} : row.id = user.id → row.email = user.email →
    t.Permits (.createUser user hash) (.ok ()) (t.putUser row hash)
  | updateUser {user hash} {old row : User} : t.users.find? user.id = some (old, hash) → row.id = user.id →
    t.Permits (.updateUser user) (.ok (some row)) (t.putUser row hash)
  | updateNoUser {user} : t.users.find? user.id = none → t.Permits (.updateUser user) (.ok none) t
  | deleteUser (id) :
    t.Permits (.deleteUser id) (.ok ((t.users.find? id).map (·.1))) { t with users := t.users.erase id }
  | findUser (id) : t.Permits (.findUser id) (.ok ((t.users.find? id).map (·.1))) t
  | findUserByEmail {address id row} : t.users.find? id = some row → row.1.email = address →
    t.Permits (.findUserByEmail address) (.ok (some row.1)) t
  | findNoUserByEmail {address} : (∀ id row, t.users.find? id = some row → row.1.email ≠ address) →
    t.Permits (.findUserByEmail address) (.ok none) t
  | findPassword (id) : t.Permits (.findPassword id) (.ok ((t.users.find? id).map (·.2))) t
  | updatePassword {id hash old} {row : User} : t.users.find? id = some old → row.id = id →
    row.email = old.1.email → t.Permits (.updatePassword id hash) (.ok ()) (t.putUser row hash)
  | updateNoPassword {id hash} : t.users.find? id = none → t.Permits (.updatePassword id hash) (.ok ()) t
  | createSession {s row : Session} (count) : t.sessions.find? row.id = none → minInt64 ≤ row.id →
    row.id ≤ maxInt64 → t.Permits (.createSession s) (.ok row) { t.putSession row with sessionCount := count }
  | findSessionByToken {type text id row} (role) : t.sessions.find? id = some row → row.token type = text →
    t.Permits (.findSessionByToken type text) (.ok (some { row with role })) t
  | findNoSessionByToken {type text} : (∀ id row, t.sessions.find? id = some row → row.token type ≠ text) →
    t.Permits (.findSessionByToken type text) (.ok none) t
  | findSession {id row} (role) : t.sessions.find? id = some row →
    t.Permits (.findSession id) (.ok (some { row with role })) t
  | findNoSession {id} : t.sessions.find? id = none → t.Permits (.findSession id) (.ok none) t
  | updateTokens {id tokens old} {row : Session} : t.sessions.find? id = some old → row.id = id →
    row.accessToken = tokens.accessToken → row.refreshToken = tokens.refreshToken →
    t.Permits (.updateTokens id tokens) (.ok ()) (t.putSession row)
  | updateNoTokens {id tokens} : t.sessions.find? id = none → t.Permits (.updateTokens id tokens) (.ok ()) t
  | deleteSession (id) : t.Permits (.deleteSession id) (.ok ()) { t with sessions := t.sessions.erase id }
  | findGrants : t.Permits .findGrants (.ok t.grants) t
  | createGrant (g) : t.Permits (.createGrant g) (.ok ()) (t.addGrant g)

variable {t t' : Tables} {r : Request}

theorem keyed_empty : Keyed {} := ⟨fun _ _ => nofun, fun _ _ => nofun⟩

theorem unique_empty : Unique {} := fun _ _ _ _ => nofun

theorem Keyed.putUser (keyed : t.Keyed) (user : User) (hash : String) : (t.putUser user hash).Keyed where
  users _ _ := id_of_find?_putUser keyed.users
  sessions := keyed.sessions

theorem Unique.putUser (unique : t.Unique) {user : User} {hash : String}
    (free : ∀ id row, t.users.find? id = some row → row.1.email = user.email → id = user.id) :
    (t.putUser user hash).Unique := by
  intro id id' row row' found found' same
  simp only [Tables.putUser, SortedMap.find?_insert] at found found'
  split at found
  · next own =>
    obtain rfl := Option.some.inj found
    split at found'
    · next own' => exact own.symm.trans own'
    · exact own.symm.trans (free id' row' found' same.symm).symm
  · split at found'
    · next own' =>
      obtain rfl := Option.some.inj found'
      exact (free id row found same).trans own'
    · exact unique id id' row row' found found' same

theorem Keyed.putSession (keyed : t.Keyed) {row : Session} (lower : minInt64 ≤ row.id) (upper : row.id ≤ maxInt64) :
    (t.putSession row).Keyed where
  users := keyed.users
  sessions id row' found := by
    simp only [Tables.putSession, SortedMap.find?_insert] at found
    split at found
    · next same =>
      obtain rfl := Option.some.inj found
      exact ⟨same, same ▸ lower, same ▸ upper⟩
    · exact keyed.sessions id row' found

theorem Permits.keyed {answer : Except Error r.Result} (permits : t.Permits r answer t') (keyed : t.Keyed) :
    t'.Keyed := by
  cases permits with
  | createUser | updateUser | updatePassword => exact keyed.putUser _ _
  | deleteUser id =>
    refine ⟨fun id' row found => ?_, keyed.sessions⟩
    rw [SortedMap.find?_erase] at found
    split at found
    · cases found
    · exact keyed.users id' row found
  | createSession _ _ lower upper =>
    have put := keyed.putSession lower upper
    exact ⟨put.users, put.sessions⟩
  | updateTokens found same =>
    obtain ⟨_, lower, upper⟩ := keyed.sessions _ _ found
    exact keyed.putSession (same ▸ lower) (same ▸ upper)
  | deleteSession id =>
    refine ⟨keyed.users, fun id' row found => ?_⟩
    rw [SortedMap.find?_erase] at found
    split at found
    · cases found
    · exact keyed.sessions id' row found
  | createGrant g =>
    rw [addGrant]
    split
    · exact keyed
    · exact ⟨keyed.users, keyed.sessions⟩
  | _ => exact keyed

/-- With no two users of one email, it is clear whom it leads to. -/
theorem Unique.userWithEmail?_eq_some_iff (unique : t.Unique) {address : String} {user : User} :
    t.userWithEmail? address = some user ↔
      ∃ id hash, t.users.find? id = some (user, hash) ∧ user.email = address := by
  constructor
  · intro found
    obtain ⟨row, first, rfl⟩ := Option.map_eq_some_iff.1 found
    obtain ⟨id, held⟩ := (SortedMap.mem_values_iff _).1 (List.mem_of_find?_eq_some first)
    have same := List.find?_some first
    exact ⟨id, row.2, held, beq_iff_eq.1 same⟩
  · rintro ⟨id, hash, held, rfl⟩
    cases first : t.users.values.find? (·.1.email == user.email) with
    | none =>
      have other := List.find?_eq_none.1 first (user, hash) ((SortedMap.mem_values_iff _).2 ⟨id, held⟩)
      exact absurd (beq_self_eq_true _) other
    | some row =>
      obtain ⟨id', held'⟩ := (SortedMap.mem_values_iff _).1 (List.mem_of_find?_eq_some first)
      have same := List.find?_some first
      obtain rfl := unique id' id row (user, hash) held' held (beq_iff_eq.1 same)
      rw [held] at held'
      obtain rfl := Option.some.inj held'
      rw [userWithEmail?, first, Option.map_some]

theorem userWithEmail?_eq_none_iff {address : String} :
    t.userWithEmail? address = none ↔ ∀ id row, t.users.find? id = some row → row.1.email ≠ address := by
  rw [userWithEmail?, Option.map_eq_none_iff, List.find?_eq_none]
  refine ⟨fun none id row held same => ?_, fun none row member same => ?_⟩
  · exact none row ((SortedMap.mem_values_iff _).2 ⟨id, held⟩) (beq_iff_eq.2 same)
  · obtain ⟨id, held⟩ := (SortedMap.mem_values_iff _).1 member
    exact none id row held (beq_iff_eq.1 same)

/-- The tables in memory do what is expected of a database, as long as there
are ids for new sessions. -/
theorem Sound.permits_serve (sound : t.Sound) (few : (t.sessionCount : Int) < maxInt64) (now : Timestamp)
    (r : Request) : t.Permits r (t.serve now r).1 (t.serve now r).2 := by
  cases r with
  | createUser user hash =>
    rw [Tables.serve]
    split
    · exact .fail _
    · exact .createUser rfl rfl
  | updateUser user =>
    rw [Tables.serve, Tables.updateUser]
    cases found : t.users.find? user.id with
    | none => exact .updateNoUser found
    | some row => exact .updateUser found rfl
  | deleteUser id => exact .deleteUser id
  | findUser id => exact .findUser id
  | findUserByEmail email =>
    cases found : t.users.values.find? (·.1.email == email) with
    | none =>
      have none : t.userWithEmail? email = none := by rw [userWithEmail?, found, Option.map_none]
      rw [Tables.serve, none]
      exact .findNoUserByEmail (userWithEmail?_eq_none_iff.1 none)
    | some row =>
      rw [Tables.serve, userWithEmail?, found]
      obtain ⟨id, held⟩ := (SortedMap.mem_values_iff _).1 (List.mem_of_find?_eq_some found)
      have same := List.find?_some found
      exact .findUserByEmail held (beq_iff_eq.1 same)
  | findPassword id => exact .findPassword id
  | updatePassword id hash =>
    rw [Tables.serve]
    cases found : t.users.find? id with
    | none => exact .updateNoPassword found
    | some row => exact .updatePassword found (sound.users id row found) rfl
  | createSession s =>
    refine .createSession (t.sessionCount + 1) ?_ ?_ ?_
    · rw [Option.eq_none_iff_forall_ne_some]
      intro row found
      have old : (t.sessionCount : Int) + 1 ≤ t.sessionCount := (sound.sessions _ row found).2
      omega
    · simp only [minInt64]
      omega
    · simp only
      omega
  | findSessionByToken type token =>
    rw [Tables.serve]
    cases found : t.sessions.values.find? (·.token type == token) with
    | none =>
      refine .findNoSessionByToken fun id row held same => ?_
      have other := List.find?_eq_none.1 found row ((SortedMap.mem_values_iff _).2 ⟨id, held⟩)
      exact other (beq_iff_eq.2 same)
    | some row =>
      obtain ⟨id, held⟩ := (SortedMap.mem_values_iff _).1 (List.mem_of_find?_eq_some found)
      have same := List.find?_some found
      exact .findSessionByToken "" held (beq_iff_eq.1 same)
  | findSession id =>
    rw [Tables.serve]
    cases found : t.sessions.find? id with
    | none => exact .findNoSession found
    | some row => exact .findSession "" found
  | updateTokens id tokens =>
    rw [Tables.serve, Tables.updateTokens]
    cases found : t.sessions.find? id with
    | none => exact .fail _
    | some row =>
      obtain rfl := (sound.sessions id row found).1
      have permits : t.Permits (.updateTokens row.id tokens) (.ok ()) (t.putSession { row with
          accessToken := tokens.accessToken
          refreshToken := tokens.refreshToken
          accessTokenExpiredAt := tokens.accessTokenExpiredAt
          refreshTokenExpiredAt := tokens.refreshTokenExpiredAt
          userAgent := tokens.userAgent
          updatedAt := now }) := .updateTokens found rfl rfl rfl
      exact permits
  | deleteSession id => exact .deleteSession id
  | findGrants => exact .findGrants
  | createGrant g => exact .createGrant g

end Database.Tables

end AccountCache
