import AccountCache.Accounts.Sessions
import AccountCache.Proofs.Sequential.Users

namespace AccountCache

open Database (Tables)
open Simulation (World Circumstances Ensures)

namespace Database.Tables

/-- What a session counts as that was loaded: it has its owner's role, and
without an owner there is none. -/
def owned? (t : Tables) (found : Option Session) : Option Session :=
  found.bind fun s => (t.users.find? s.userId).map fun row => { s with role := row.1.role }

/-- What may be found by a token that was asked for under some types: a
session that is held and has the token under some type, or nothing, if some
session could not be written, if under a type that was asked for there is
none, or if the session has no owner. -/
def Seeks (t : Tables) (asked : TokenType → Prop) (unable : Prop) (text : String) : Option Session → Prop
  | some s => t.Holds s ∧ ∃ type, s.token type = text
  | none => unable ∨ (∃ type, asked type ∧ t.Lacks type text) ∨
    ∃ id row, t.sessions.find? id = some row ∧ t.users.find? row.userId = none

def Unwritable (t : Tables) : Prop := ∃ id row, t.sessions.find? id = some row ∧ Storable.encode? row = none

variable {t : Tables} {s : Session}

theorem Holds.role (holds : t.Holds s) (role : String) : t.Holds { s with role } := by
  obtain ⟨row, _, found, same⟩ := holds
  exact ⟨row, role, found, by rw [same]⟩

theorem Holds.of_owned? {found : Option Session} (owned : t.owned? found = some s)
    (holds : ∀ s, found = some s → t.Holds s) : t.Holds s := by
  obtain ⟨s₀, rfl, named⟩ := Option.bind_eq_some_iff.1 owned
  obtain ⟨row, _, rfl⟩ := Option.map_eq_some_iff.1 named
  exact (holds s₀ rfl).role row.1.role

end Database.Tables

namespace Accounts

namespace Calm

variable {a : Accounts} {c : Circumstances} {right right' told : Datum → Bytes → Prop} {taken : String → Prop}
  {held : List Cache.Lock} {t : Tables} {w : World} {d : Datum}

theorem faithful_of_holds {s : Session} (keyed : t.Keyed) (holds : t.Holds s) : Storable.Faithful s := by
  obtain ⟨row, role, found, same⟩ := holds
  obtain ⟨_, lower, upper⟩ := keyed.sessions _ row found
  exact Session.faithful lower upper

theorem rightWith_of_mem {s : Session} {bytes : Bytes} {unique : Prop} (own : d ∈ s.data) (correct : told d bytes) :
    d.RightWith told unique taken t bytes := by
  simp only [Session.data, List.mem_cons, List.not_mem_nil, or_false] at own
  rcases own with rfl | rfl | rfl <;> exact correct

theorem marked_of_holds {s : Session} {bytes : Bytes} {asked : String → TokenType → Prop} {unable : Prop}
    (holds : t.Holds s) (encoded : Storable.encode? s = some bytes) (own : d ∈ s.data) :
    d.Marked asked unable t bytes := by
  simp only [Session.data, List.mem_cons, List.not_mem_nil, or_false] at own
  rcases own with rfl | rfl | rfl
  · exact .inr ⟨s, holds, ⟨.access, rfl⟩, encoded⟩
  · exact .inr ⟨s, holds, rfl, encoded⟩
  · exact .inr ⟨s, holds, ⟨.refresh, rfl⟩, encoded⟩

/-- What is cached of a session has to be right under its keys, and what was
there need not have been. -/
theorem cacheSession_at (calm : Calm a c right held t w) {s : Session} {bytes : Bytes} (now later : Timestamp)
    (bounded : c.bounded → ∀ item ∈ sessionItems s bytes now later, a.cache.seconds item ≤ 9000000000000000)
    (correct : ∀ d ∈ s.data, right' d bytes) (covers : ∀ d bytes, right d bytes → d ∈ s.data ∨ right' d bytes) :
    Ensures c (a.cacheItems (sessionItems s bytes now later)) w fun _ w' => Calm a c right' held t w' := by
  refine calm.storeMany bounded (fun item member => ?_) fun d bytes' before => ?_
  · obtain ⟨d, own, same, rfl⟩ := mem_sessionItems member
    exact ⟨d, same, correct d own⟩
  · exact (covers d bytes' before).imp_left (exists_mem_sessionItems bytes now later)

theorem cacheSession (calm : Calm a c right held t w) (unbounded : ¬c.bounded) {s : Session}
    (correct : ∀ bytes, Storable.encode? s = some bytes → ∀ d ∈ s.data, right' d bytes)
    (covers : ∀ d bytes, right d bytes → (d ∈ s.data ∧ Storable.encode? s ≠ none) ∨ right' d bytes) :
    Ensures c (a.cacheSession s) w fun _ w' => Calm a c right' held t w' := by
  cases encoded : Storable.encode? s with
  | none =>
    unfold Accounts.cacheSession
    rw [encoded]
    have calm := calm.mono fun d bytes before => (covers d bytes before).resolve_left fun able => able.2 encoded
    exact calm.warn _
  | some bytes =>
    rw [cacheSession_eq a encoded]
    refine calm.wallClock.bind fun now w' calm => calm.wallClock.bind fun later w'' calm => ?_
    exact calm.cacheSession_at now later (fun bounded => absurd bounded unbounded) (correct bytes encoded)
      fun d bytes' before => (covers d bytes' before).imp_left And.left

section

variable (unbounded : ¬c.bounded)

include unbounded

theorem completeSession (calm : Calm a c (Datum.RightWith told c.unique taken t) held t w)
    (free : ∀ lock ∈ held, ∀ id, lock.cacheKey ≠ Datum.key (.user id)) {found : Option Session}
    (mark : found = none → d.RightWith told c.unique taken t Cache.nilBytes)
    (copies : ∀ s, t.owned? found = some s → ∀ bytes, Storable.encode? s = some bytes → ∀ d ∈ s.data, told d bytes) :
    Ensures c (a.completeSession d.key found).run w fun outcome w' =>
      Yields (∃ id, c.fails (.findUser id)) outcome (· = t.owned? found) ∧
        Calm a c (Datum.RightWith told c.unique taken t) held t w' := by
  cases found with
  | none =>
    refine (calm.fillAbsent (mark rfl)).liftThen fun _ w' calm => ?_
    exact ⟨.inl ⟨none, rfl, rfl⟩, calm⟩
  | some s =>
    refine (calm.findsUser s.userId fun lock member => free lock member s.userId).andThen ?_ ?_
    · rintro owner w' ⟨⟨_, ⟨⟩, named⟩ | ⟨_, _, ⟨⟩⟩, calm⟩
      cases held : t.users.find? s.userId with
      | none =>
        obtain rfl : owner = none := by rw [named, held, Option.map_none]
        refine (calm.warn _).liftThen fun _ w' calm => ?_
        have lost : t.owned? (some s) = none := by rw [Tables.owned?, Option.bind_some, held, Option.map_none]
        exact ⟨.inl ⟨none, rfl, lost.symm⟩, calm⟩
      | some row =>
        obtain rfl : owner = some row.1 := by rw [named, held, Option.map_some]
        have owned : t.owned? (some s) = some { s with role := row.1.role } := by
          rw [Tables.owned?, Option.bind_some, held, Option.map_some]
        have cached : Ensures c (a.cacheSession { s with role := row.1.role }) w' fun _ w'' =>
            Calm a c (Datum.RightWith told c.unique taken t) _ t w'' :=
          calm.cacheSession unbounded
            (fun bytes encoded d own => rightWith_of_mem own (copies _ owned bytes encoded d own)) fun _ _ => .inr
        refine cached.liftThen fun _ w' calm => ?_
        exact ⟨.inl ⟨_, rfl, owned.symm⟩, calm⟩
    · rintro e w' ⟨⟨_, ⟨⟩, _⟩ | ⟨fails, _, ⟨⟩⟩, calm⟩
      exact ⟨.inr ⟨⟨_, fails⟩, _, rfl⟩, calm⟩

/-- A read of a session yields what is cached, or what the database
holds, completed by its owner's role. The owner is read through the
cache as well. -/
theorem readsSession (calm : Calm a c (Datum.RightWith told c.unique taken t) [] t w) (away : ∀ id, d ≠ .user id)
    {r : Database.Request} (read : r.isRead = true) {f : r.Result → Option Session} {ok : Option Session → Prop}
    (hits : ∀ bytes, d.RightWith told c.unique taken t bytes → ∃ found, ok found ∧ recorded? found = some bytes ∧
      ∀ s, found = some s → Storable.Faithful s)
    (loads : ∀ value, t.Permits r (.ok value) t → ok (t.owned? (f value)))
    (marks : ∀ value, t.Permits r (.ok value) t → f value = none → d.RightWith told c.unique taken t Cache.nilBytes)
    (copies : ∀ value, t.Permits r (.ok value) t → ∀ s, t.owned? (f value) = some s →
      ∀ bytes, Storable.encode? s = some bytes → ∀ d ∈ s.data, told d bytes) :
    Ensures c (a.read d.key do
        let found ← Operation.database r
        a.completeSession d.key (f found)).run w fun outcome w' =>
      Yields (c.fails r ∨ ∃ id, c.fails (.findUser id)) outcome ok ∧
        Calm a c (Datum.RightWith told c.unique taken t) [] t w' := by
  have null : (Storable.ofJson? .null : Option Session) = none := rfl
  refine calm.read (fun _ => nofun) (fun bytes correct => ?_) fun lock w' own calm => ?_
  · obtain ⟨found, holds, recorded, faithful⟩ := hits bytes correct
    exact ⟨found, .inl ⟨found, rfl, holds⟩, decode_ofBytes d.key null faithful recorded⟩
  · have free : ∀ l ∈ lock.toList ++ [], ∀ id, l.cacheKey ≠ Datum.key (.user id) := by
      intro l member id same
      rw [List.append_nil, Option.mem_toList] at member
      exact away id (Datum.key_injective ((own l member).symm.trans same))
    refine (calm.load read).andThen ?_ ?_
    · rintro value w' ⟨⟨_, ⟨⟩, permits⟩ | ⟨_, _, ⟨⟩⟩, calm⟩
      refine (calm.completeSession unbounded free (marks value permits) (copies value permits)).mono ?_
      rintro outcome w'' ⟨⟨_, rfl, rfl⟩ | ⟨fails, failed⟩, calm⟩
      · exact ⟨.inl ⟨_, rfl, loads value permits⟩, calm⟩
      · exact ⟨.inr ⟨.inr fails, failed⟩, calm⟩
    · rintro e w' ⟨⟨_, ⟨⟩, _⟩ | ⟨fails, _, ⟨⟩⟩, calm⟩
      exact ⟨.inr ⟨.inl fails, _, rfl⟩, calm⟩

end

theorem holds_of_permits {type : TokenType} {text : String} {found : Option Session} (keyed : t.Keyed)
    (permits : t.Permits (.findSessionByToken type text) (.ok found) t) :
    (∀ s, found = some s → t.Holds s ∧ s.token type = text) ∧ (found = none → t.Lacks type text) := by
  cases permits with
  | findNoSessionByToken lacks => exact ⟨fun _ => nofun, fun _ => lacks⟩
  | @findSessionByToken _ _ id row role held own =>
    refine ⟨?_, nofun⟩
    rintro _ ⟨⟩
    obtain rfl := (keyed.sessions id row held).1
    refine ⟨⟨row, role, held, rfl⟩, ?_⟩
    rw [← own]
    cases type <;> rfl

section

variable {asked : String → TokenType → Prop} {unable : Prop} (unbounded : ¬c.bounded)

include unbounded

theorem findsSessionByToken
    (calm : Calm a c (Datum.RightWith (Datum.Marked asked unable t) c.unique taken t) [] t w) (type : TokenType)
    (text : String) (known : asked text type) :
    Ensures c (a.findSessionByToken type text).run w fun outcome w' =>
      Yields (c.fails (.findSessionByToken type text) ∨ ∃ id, c.fails (.findUser id)) outcome
        (t.Seeks (asked text) unable text) ∧
      Calm a c (Datum.RightWith (Datum.Marked asked unable t) c.unique taken t) [] t w' := by
  have token : ∀ (s : Session) role, { s with role : Session }.token type = s.token type := fun s role => by
    cases type <;> rfl
  refine calm.readsSession (d := .token text) (r := .findSessionByToken type text) (f := fun found => found) unbounded
    (fun _ => nofun) rfl (fun bytes marked => ?_) (fun found permits => ?_) (fun found permits missing => ?_)
    fun found permits s owned bytes encoded d own => ?_
  · rcases marked with ⟨rfl, able | lacks⟩ | ⟨s, holds, own, encoded⟩
    · exact ⟨none, .inl able, rfl, fun _ => nofun⟩
    · exact ⟨none, .inr (.inl lacks), rfl, fun _ => nofun⟩
    · refine ⟨some s, ⟨holds, own⟩, encoded, ?_⟩
      rintro _ ⟨⟩
      exact faithful_of_holds calm.keyed holds
  · obtain ⟨there, nowhere⟩ := holds_of_permits calm.keyed permits
    cases found with
    | none => exact .inr (.inl ⟨type, known, nowhere rfl⟩)
    | some s =>
      obtain ⟨⟨row, role, held, same⟩, own⟩ := there s rfl
      cases owner : t.users.find? s.userId with
      | none =>
        rw [Tables.owned?, Option.bind_some, owner, Option.map_none]
        refine .inr (.inr ⟨s.id, row, held, ?_⟩)
        rwa [same] at owner
      | some user =>
        rw [Tables.owned?, Option.bind_some, owner, Option.map_some]
        exact ⟨Tables.Holds.role ⟨row, role, held, same⟩ _, type, (token s _).trans own⟩
  · exact .inl ⟨rfl, .inr ⟨type, known, (holds_of_permits calm.keyed permits).2 missing⟩⟩
  · have holds := Tables.Holds.of_owned? owned fun s same => ((holds_of_permits calm.keyed permits).1 s same).1
    exact marked_of_holds holds encoded own

theorem findsSession (calm : Calm a c (Datum.RightWith (Datum.Marked asked unable t) c.unique taken t) [] t w)
    (id : Int) :
    Ensures c (a.findSession id).run w fun outcome w' =>
      (∀ s, outcome = .ok (some s) → t.Holds s ∧ s.id = id) ∧
        Calm a c (Datum.RightWith (Datum.Marked asked unable t) c.unique taken t) [] t w' := by
  have holds : ∀ found, t.Permits (.findSession id) (.ok found) t → ∀ s, t.owned? found = some s →
      t.Holds s ∧ s.id = id := by
    intro found permits s owned
    obtain ⟨s₀, rfl, named⟩ := Option.bind_eq_some_iff.1 owned
    obtain ⟨user, _, rfl⟩ := Option.map_eq_some_iff.1 named
    cases permits with
    | @findSession _ row role held =>
      obtain rfl := (calm.keyed.sessions id row held).1
      exact ⟨⟨row, user.1.role, held, rfl⟩, rfl⟩
  have reads : Ensures c (a.findSession id).run w fun outcome w' =>
      Yields (c.fails (.findSession id) ∨ ∃ id, c.fails (.findUser id)) outcome
        (fun found => ∀ s, found = some s → t.Holds s ∧ s.id = id) ∧
      Calm a c (Datum.RightWith (Datum.Marked asked unable t) c.unique taken t) [] t w' := by
    refine calm.readsSession (d := .session id) (r := .findSession id) (f := fun found => found) unbounded
      (fun _ => nofun) rfl (fun bytes marked => ?_) holds (fun _ _ _ => .inl rfl)
      fun found permits s owned bytes encoded d own => marked_of_holds (holds found permits s owned).1 encoded own
    rcases marked with rfl | ⟨s, holds, same, encoded⟩
    · exact ⟨none, fun _ => nofun, rfl, fun _ => nofun⟩
    · refine ⟨some s, ?_, encoded, ?_⟩
      · rintro _ ⟨⟩
        exact ⟨holds, same⟩
      · rintro _ ⟨⟩
        exact faithful_of_holds calm.keyed holds
  refine reads.mono ?_
  rintro outcome w' ⟨⟨found, rfl, told⟩ | ⟨_, _, rfl⟩, calm⟩
  · refine ⟨?_, calm⟩
    rintro s ⟨⟩
    exact told s rfl
  · exact ⟨fun _ => nofun, calm⟩

/-- A new session is cached, unless it cannot be written. -/
theorem createsSession (calm : Calm a c (Datum.RightWith (Datum.Marked asked unable t) c.unique taken t) [] t w)
    (s : Session) :
    Ensures c (a.createSession s).run w fun _ w' => ∃ t', t'.users = t.users ∧
      Calm a c (Datum.RightWith (Datum.Marked asked (unable ∨ t'.Unwritable) t') c.unique taken t') [] t' w' := by
  refine calm.writeThen unbounded ?_ ?_
  · intro row t' w' permits after
    cases permits with
    | createSession count fresh lower upper =>
      have put : (t.putSession row).sessions.find? row.id = some row := SortedMap.find?_insert_self ..
      have others : ∀ id, row.id ≠ id → (t.putSession row).sessions.find? id = t.sessions.find? id := by
        intro id differ
        rw [Tables.putSession, SortedMap.find?_insert, if_neg differ]
      refine (after.cacheSession unbounded (fun bytes encoded d own => ?_) fun d bytes right => ?_).liftThen
        fun _ w'' after => ⟨{ t.putSession row with sessionCount := count }, rfl, after⟩
      · exact rightWith_of_mem own (marked_of_holds ⟨row, row.role, put, rfl⟩ encoded own)
      · refine right.of_users_eq rfl fun marked => ?_
        have marked : d.Marked asked (unable ∨ Tables.Unwritable { t.putSession row with sessionCount := count }) t
            bytes := marked.mono (fun _ _ => id) .inl
        rcases Datum.marked_of_sessions others marked with ⟨_, found, _⟩ | ⟨able, new, found, own⟩ | marked
        · rw [fresh] at found
          cases found
        · rw [put] at found
          obtain rfl := Option.some.inj found
          exact .inl ⟨own, fun unwritable => able (.inr ⟨row.id, row, put, unwritable⟩)⟩
        · exact .inr marked
  · intro e w' after
    exact ⟨t, rfl, after.mono fun _ _ right => right.mono (fun _ => id) fun marked => marked.mono (fun _ _ => id) .inl⟩

/-- A session that is given as the database holds it gets new tokens, and no
copy of what it was is left. -/
theorem refreshesSession (calm : Calm a c (Datum.RightWith (Datum.Marked asked unable t) c.unique taken t) [] t w)
    {old : Session} (current : t.Current old) (tokens : SessionTokens) :
    Ensures c (a.refreshSession old tokens).run w fun _ w' => ∃ t', t'.users = t.users ∧
      Calm a c (Datum.RightWith (Datum.Marked asked unable t') c.unique taken t') [] t' w' := by
  refine calm.writeThen unbounded ?_ ?_
  · intro _ t' w' permits after
    have users : t'.users = t.users := by
      cases permits <;> rfl
    have covers : ∀ d bytes, Datum.Marked asked unable t d bytes →
        d ∈ [Datum.token old.accessToken, .token old.refreshToken, .session old.id, .token tokens.accessToken,
          .token tokens.refreshToken] ∨ Datum.Marked asked unable t' d bytes := by
      intro d bytes marked
      cases permits with
      | @updateTokens _ _ _ row found same access refresh =>
        -- Since the session is given as the database holds it, the row that is overwritten has the same keys.
        have own := Datum.marked_of_current (t.putSession row) calm.keyed current (fun id differ => by
          rw [Tables.putSession, SortedMap.find?_insert, if_neg (same ▸ differ)]) marked
        rcases own with own | ⟨new, found, own⟩ | marked
        · simp only [Session.data, List.mem_cons, List.not_mem_nil, or_false] at own
          rcases own with rfl | rfl | rfl <;> simp
        · rw [Tables.putSession, SortedMap.find?_insert, if_pos same] at found
          obtain rfl := Option.some.inj found
          simp only [Session.data, access, refresh, same, List.mem_cons, List.not_mem_nil, or_false] at own
          rcases own with rfl | rfl | rfl <;> simp
        · exact .inr marked
      | updateNoTokens => exact .inr marked
    refine (after.invalidate _ fun d bytes right => right.of_users_eq users (covers d bytes)).liftThen
      fun _ w'' after => (after.findsSession unbounded old.id).mono ?_
    rintro _ w ⟨_, after⟩
    exact ⟨t', users, after⟩
  · intro e w' after
    exact ⟨t, rfl, after⟩

theorem deletesSession (calm : Calm a c (Datum.RightWith (Datum.Marked asked unable t) c.unique taken t) [] t w)
    {s : Session} (current : t.Current s) :
    Ensures c (a.deleteSession s).run w fun _ w' => ∃ t', t'.users = t.users ∧
      Calm a c (Datum.RightWith (Datum.Marked asked unable t') c.unique taken t') [] t' w' := by
  refine calm.writeThen unbounded ?_ ?_
  · intro _ t' w' permits after
    have users : t'.users = t.users := by
      cases permits
      rfl
    have covers : ∀ d bytes, Datum.Marked asked unable t d bytes →
        d ∈ [Datum.token s.accessToken, .token s.refreshToken, .session s.id] ∨
          Datum.Marked asked unable t' d bytes := by
      intro d bytes marked
      cases permits with
      | deleteSession =>
        have own := Datum.marked_of_current { t with sessions := t.sessions.erase s.id } calm.keyed current
          (fun id differ => by rw [SortedMap.find?_erase, if_neg differ]) marked
        rcases own with own | ⟨_, found, _⟩ | marked
        · simp only [Session.data, List.mem_cons, List.not_mem_nil, or_false] at own
          rcases own with rfl | rfl | rfl <;> simp
        · rw [SortedMap.find?_erase, if_pos rfl] at found
          cases found
        · exact .inr marked
    refine (after.invalidate _ fun d bytes right => right.of_users_eq users (covers d bytes)).lift.mono ?_
    rintro _ w'' ⟨_, _, after⟩
    exact ⟨t', users, after⟩
  · intro e w' after
    exact ⟨t, rfl, after⟩

end

theorem checksToken (calm : Calm a c right held t w) (text : String) :
    Ensures c (a.checkToken text) w fun known w' =>
      (known = true → ∃ bytes, right (.token text) bytes ∧ bytes ≠ Cache.nilBytes) ∧ Calm a c right held t w' := by
  have looked : Ensures c (a.cache.get (Key.token text)) w fun found w' => Calm a c right held t w' ∧
      ∀ cached, found = some cached → ∃ bytes, right (.token text) bytes ∧ cached = .ofBytes bytes := by
    rw [Cache.Manager.get]
    split
    · exact ⟨calm, by rintro _ ⟨⟩⟩
    · exact calm.checkCache (.token text)
  refine looked.bind ?_
  rintro found w' ⟨calm, told⟩
  cases found with
  | none => exact ⟨by rintro ⟨⟩, calm⟩
  | some cached =>
    obtain ⟨bytes, correct, rfl⟩ := told cached rfl
    refine ⟨fun known => ⟨bytes, correct, ?_⟩, calm⟩
    rintro rfl
    cases known

theorem findSessionByToken (calm : Calm a c (Datum.Right c.unique taken t) [] t w) (unbounded : ¬c.bounded)
    (type : TokenType) (text : String) :
    Ensures c (a.findSessionByToken type text).run w fun outcome w' =>
      (∀ s, outcome = .ok (some s) → t.Holds s ∧ ∃ type, s.token type = text) ∧
        Calm a c (Datum.Right c.unique taken t) [] t w' := by
  have marked : Calm a c (Datum.RightWith (Datum.Marked (fun _ _ => True) True t) c.unique taken t) [] t w :=
    calm.mono fun _ _ => Datum.Right.marked
  refine (marked.findsSessionByToken unbounded type text trivial).mono ?_
  rintro outcome w' ⟨yields, calm⟩
  refine ⟨?_, calm.mono fun _ _ right => right.right rfl⟩
  rintro s rfl
  rcases yields with ⟨_, ⟨⟩, seeks⟩ | ⟨_, _, ⟨⟩⟩
  exact seeks

theorem findSession (calm : Calm a c (Datum.Right c.unique taken t) [] t w) (unbounded : ¬c.bounded) (id : Int) :
    Ensures c (a.findSession id).run w fun outcome w' =>
      (∀ s, outcome = .ok (some s) → t.Holds s ∧ s.id = id) ∧ Calm a c (Datum.Right c.unique taken t) [] t w' :=
  (calm.marked.findsSession unbounded id).mono fun _ _ =>
    .imp_right fun calm => calm.mono fun _ _ right => right.right rfl

theorem checkToken (calm : Calm a c (Datum.Right c.unique taken t) [] t w) (text : String) :
    Ensures c (a.checkToken text) w fun known w' =>
      (known = true → ∃ s, t.Holds s ∧ ∃ type, s.token type = text) ∧
        Calm a c (Datum.Right c.unique taken t) [] t w' := by
  refine (calm.checksToken text).mono ?_
  rintro known w' ⟨live, calm⟩
  refine ⟨fun isKnown => ?_, calm⟩
  obtain ⟨bytes, correct, row⟩ := live isKnown
  obtain ⟨s, holds, own, _⟩ := correct.resolve_left row
  exact ⟨s, holds, own⟩

end Calm

end Accounts

end AccountCache
