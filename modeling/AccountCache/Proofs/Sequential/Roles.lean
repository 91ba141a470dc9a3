import AccountCache.Proofs.Sequential.Transparency

namespace AccountCache

open Database (Tables)
open Simulation (World Circumstances Ensures Runs)

/-- Whether a session has an owner, and the role of that owner. -/
def Database.Tables.HasRole (t : Tables) (s : Session) : Prop :=
  ∃ row, t.users.find? s.userId = some row ∧ s.role = row.1.role

theorem Database.Tables.hasRole_of_owned? {t : Tables} {found : Option Session} {s : Session}
    (owned : t.owned? found = some s) : t.HasRole s := by
  obtain ⟨_, _, named⟩ := Option.bind_eq_some_iff.1 owned
  obtain ⟨row, held, rfl⟩ := Option.map_eq_some_iff.1 named
  exact ⟨row, held, rfl⟩

/-- Whether a session is one that is loaded when some are asked for: it
is among them, the database holds it, its role aside, and its role is
its owner's. -/
def Database.Tables.Loads (t : Tables) (asked : Session → Prop) (s : Session) : Prop :=
  asked s ∧ t.Holds s ∧ t.HasRole s

def Datum.Copies (origin : Datum → Session → Prop) (d : Datum) (bytes : Bytes) : Prop :=
  bytes = Cache.nilBytes ∨ ∃ s, origin d s ∧ Storable.Faithful s ∧ Storable.encode? s = some bytes

theorem Datum.Copies.mono {origin origin' : Datum → Session → Prop} {d : Datum} {bytes : Bytes}
    (copies : d.Copies origin bytes) (more : ∀ s, origin d s → origin' d s) : d.Copies origin' bytes :=
  copies.imp_right fun ⟨s, known, rest⟩ => ⟨s, more s known, rest⟩

/-- Whether the entry that is live under a key is a copy of a session, its
role included. -/
def Simulation.World.HasCopy (w : World) (key : String) (s : Session) : Prop :=
  ∃ e, w.cached? key = some e ∧ Storable.encode? s = some e.value

namespace Accounts

namespace Calm

variable {a : Accounts} {c : Circumstances} {origin : Datum → Session → Prop} {taken : String → Prop} {t : Tables}
  {w : World} {d : Datum}

section

variable (unbounded : ¬c.bounded) (calm : Calm a c (Datum.RightWith (Datum.Copies origin) c.unique taken t) [] t w)

include unbounded calm

/-- A read of a session yields a copy that was there before or a session
that it loads, and no copy is left but of such a session: of those that are
loaded, only what was asked for is cached. -/
theorem readsCopy {asked : Session → Prop} (away : ∀ id, d ≠ .user id)
    (isTold : ∀ told bytes, d.RightWith told c.unique taken t bytes ↔ told d bytes)
    {r : Database.Request} (read : r.isRead = true) {f : r.Result → Option Session}
    (loads : ∀ value, t.Permits r (.ok value) t → ∀ s, t.owned? (f value) = some s → asked s ∧ t.Holds s) :
    Ensures c (a.read d.key do
        let found ← Operation.database r
        a.completeSession d.key (f found)).run w fun outcome w' =>
      (∀ s, outcome = .ok (some s) → origin d s ∨ t.Loads asked s) ∧
        Calm a c (Datum.RightWith (Datum.Copies fun d s => origin d s ∨ t.Loads asked s) c.unique taken t) [] t w' := by
  have calm : Calm a c (Datum.RightWith (Datum.Copies fun d s => origin d s ∨ t.Loads asked s) c.unique taken t)
      [] t w := calm.mono fun _ _ right => right.mono (fun _ => id) fun copies => copies.mono fun _ => .inl
  have loaded : ∀ value, t.Permits r (.ok value) t → ∀ s, t.owned? (f value) = some s → t.Loads asked s :=
    fun value permits s owned =>
      ⟨(loads value permits s owned).1, (loads value permits s owned).2, Tables.hasRole_of_owned? owned⟩
  have reads : Ensures c (a.read d.key do
        let found ← Operation.database r
        a.completeSession d.key (f found)).run w fun outcome w' =>
      Yields (c.fails r ∨ ∃ id, c.fails (.findUser id)) outcome
        (fun found => ∀ s, found = some s → origin d s ∨ t.Loads asked s) ∧
      Calm a c (Datum.RightWith (Datum.Copies fun d s => origin d s ∨ t.Loads asked s) c.unique taken t) [] t w' := by
    refine calm.readsSession unbounded away read (fun bytes correct => ?_)
      (fun value permits s owned => .inr (loaded value permits s owned)) (fun _ _ _ => (isTold _ _).2 (.inl rfl))
      fun value permits s owned bytes encoded d' _ => ?_
    · rcases (isTold _ bytes).1 correct with rfl | ⟨s, known, faithful, encoded⟩
      · exact ⟨none, fun _ => nofun, rfl, fun _ => nofun⟩
      · refine ⟨some s, ?_, encoded, ?_⟩
        · rintro _ ⟨⟩
          exact known
        · rintro _ ⟨⟩
          exact faithful
    · have loaded := loaded value permits s owned
      exact .inr ⟨s, .inr loaded, faithful_of_holds calm.keyed loaded.2.1, encoded⟩
  refine reads.mono ?_
  rintro outcome w' ⟨⟨found, rfl, told⟩ | ⟨_, _, rfl⟩, calm⟩
  · refine ⟨?_, calm⟩
    rintro s ⟨⟩
    exact told s rfl
  · exact ⟨fun _ => nofun, calm⟩

theorem findsCopyByToken (type : TokenType) (text : String) :
    Ensures c (a.findSessionByToken type text).run w fun outcome w' =>
      (∀ s, outcome = .ok (some s) → origin (.token text) s ∨ t.Loads (·.token type = text) s) ∧
        Calm a c (Datum.RightWith (Datum.Copies fun d s => origin d s ∨ t.Loads (·.token type = text) s) c.unique
          taken t) [] t w' := by
  refine calm.readsCopy (d := .token text) (r := .findSessionByToken type text) (f := fun found => found) unbounded
    (fun _ => nofun) (fun _ _ => Iff.rfl) rfl fun found permits s owned => ?_
  obtain ⟨s₀, rfl, named⟩ := Option.bind_eq_some_iff.1 owned
  obtain ⟨row, _, rfl⟩ := Option.map_eq_some_iff.1 named
  obtain ⟨holds, own⟩ := (holds_of_permits calm.keyed permits).1 s₀ rfl
  exact ⟨by rw [← own]; cases type <;> rfl, holds.role row.1.role⟩

theorem findsCopy (id : Int) :
    Ensures c (a.findSession id).run w fun outcome w' =>
      (∀ s, outcome = .ok (some s) → origin (.session id) s ∨ t.Loads (·.id = id) s) ∧
        Calm a c (Datum.RightWith (Datum.Copies fun d s => origin d s ∨ t.Loads (·.id = id) s) c.unique taken t) []
          t w' := by
  refine calm.readsCopy (d := .session id) (r := .findSession id) (f := fun found => found) unbounded
    (fun _ => nofun) (fun _ _ => Iff.rfl) rfl fun found permits s owned => ?_
  obtain ⟨s₀, rfl, named⟩ := Option.bind_eq_some_iff.1 owned
  obtain ⟨owner, _, rfl⟩ := Option.map_eq_some_iff.1 named
  cases permits with
  | @findSession _ row role held =>
    obtain ⟨rfl, _⟩ := calm.keyed.sessions id row held
    exact ⟨rfl, row, owner.1.role, held, rfl⟩

theorem refreshesCopy (old : Session) (tokens : SessionTokens) :
    Ensures c (a.refreshSession old tokens).run w fun outcome w' => ∃ t', t'.users = t.users ∧
      (∀ s, outcome = .ok (some s) → t'.Loads (·.id = old.id) s) ∧
      Calm a c (Datum.RightWith (Datum.Copies fun d s => origin d s ∨ t'.Loads (·.id = old.id) s) c.unique taken t')
        [] t' w' := by
  refine calm.writeThen unbounded ?_ ?_
  · intro _ t' w' permits after
    have users : t'.users = t.users := by
      cases permits <;> rfl
    have covers : ∀ d bytes, Datum.Copies origin d bytes →
        d ∈ [Datum.token old.accessToken, .token old.refreshToken, .session old.id, .token tokens.accessToken,
          .token tokens.refreshToken] ∨
        d.Copies (fun d s => d ≠ .session old.id ∧ origin d s) bytes := by
      intro d bytes copies
      by_cases own : d = .session old.id
      · exact .inl (by simp [own])
      · exact .inr (copies.mono fun _ known => ⟨own, known⟩)
    refine (after.invalidate _ fun d bytes right => right.of_users_eq users (covers d bytes)).liftThen
      fun _ w'' after => (after.findsCopy unbounded old.id).mono ?_
    rintro outcome w ⟨found, after⟩
    refine ⟨t', users, fun s same => (found s same).resolve_left fun stale => stale.1 rfl, ?_⟩
    exact after.mono fun _ _ right => right.mono (fun _ => id) fun copies => copies.mono fun _ => .imp_left And.right
  · intro e w' after
    exact ⟨t, rfl, fun _ => nofun,
      after.mono fun _ _ right => right.mono (fun _ => id) fun copies => copies.mono fun _ => .inl⟩

theorem createsCopy (s : Session) :
    Ensures c (a.createSession s).run w fun _ w' => ∃ t', t'.users = t.users ∧
      Calm a c (Datum.RightWith (Datum.Copies fun d x => origin d x ∨ t.Permits (.createSession s) (.ok x) t') c.unique
        taken t') [] t' w' := by
  refine calm.writeThen unbounded ?_ ?_
  · intro row t' w' permits after
    have users : t'.users = t.users := by
      cases permits
      rfl
    have faithful : Storable.Faithful row := by
      cases permits with
      | createSession _ _ lower upper => exact Session.faithful lower upper
    refine (after.cacheSession unbounded (fun bytes encoded d own => ?_) fun d bytes right => .inr ?_).liftThen
      fun _ w'' after => ⟨t', users, after⟩
    · exact rightWith_of_mem own (.inr ⟨row, .inr permits, faithful, encoded⟩)
    · exact (right.of_users_eq users fun copies => .inr (copies.mono fun _ => .inl) : False ∨ _).resolve_left id
  · intro e w' after
    exact ⟨t, rfl, after.mono fun _ _ right => right.mono (fun _ => id) fun copies => copies.mono fun _ => .inl⟩

theorem deletesCopy (s : Session) :
    Ensures c (a.deleteSession s).run w fun _ w' => ∃ t', t'.users = t.users ∧
      Calm a c (Datum.RightWith (Datum.Copies origin) c.unique taken t') [] t' w' := by
  refine calm.writeThen unbounded ?_ ?_
  · intro _ t' w' permits after
    have users : t'.users = t.users := by
      cases permits
      rfl
    refine (after.invalidate [.token s.accessToken, .token s.refreshToken, .session s.id] fun d bytes right =>
      right.of_users_eq users .inr).lift.mono ?_
    rintro _ w'' ⟨_, _, after⟩
    exact ⟨t', users, after⟩
  · intro e w' after
    exact ⟨t, rfl, after⟩

end

end Calm

/-- Whether an operation asks the database for a session, by one of its
tokens or by its id. One that gives a session new tokens asks for it by its
id, to read it back. -/
def Command.AsksFor : Command → Session → Prop
  | .findSessionByToken type text => (·.token type = text)
  | .findSession id => (·.id = id)
  | .refreshSession old _ => (·.id = old.id)
  | _ => fun _ => False

/-- Whether an operation may have cached a session as it is: it created
the session, and this is how the database yielded it, or it asked for
the session when the database held it so, and the role is the one its
owner had then. -/
inductive Step.Caches : Step → Session → Prop
  | created {s row before after} : before.Permits (.createSession s) (.ok row) after →
    Caches ⟨.createSession s, before, after⟩ row
  | loaded {command before after s} : after.Loads command.AsksFor s → Caches ⟨command, before, after⟩ s

/-- What operations may lead to one after the other, the latest first,
whatever sessions are given to be changed. -/
inductive History (a : Accounts) (c : Circumstances) : List Step → World → Prop
  | start {w} : w.Reliable → (∀ key, w.cached? key = none) → (∀ key, w.guard? key = none) → w.tables.Keyed →
    (c.unique → w.tables.Unique) → History a c [] w
  | wait {log w} (later) : History a c log w → History a c log (w.advanceTo later)
  | perform {log w w'} (command : Command) : History a c log w → Runs c (command.perform a) w () w' →
    History a c (⟨command, w.tables, w'.tables⟩ :: log) w'

theorem History.fresh {a : Accounts} {c : Circumstances} {t : Tables} (keyed : t.Keyed)
    (unique : c.unique → t.Unique) : History a c [] { tables := t } :=
  .start ⟨⟨_, _, rfl⟩, fun _ => rfl⟩ (fun _ => rfl) (fun _ => rfl) keyed unique

/-- What may be cached after some operations: of users what is right, and of
sessions what some operation cached. -/
def Sourced (unique : Prop) (log : List Step) (t : Tables) : Datum → Bytes → Prop :=
  Datum.RightWith (Datum.Copies fun _ s => ∃ step ∈ log, step.Caches s) unique (Taken log) t

variable {a : Accounts} {c : Circumstances} {log : List Step} {w : World} {t : Tables}

theorem Command.ensures_sourced (command : Command) (unbounded : ¬c.bounded)
    (calm : Calm a c (Sourced c.unique log t) [] t w) : Ensures c (command.perform a) w fun _ w' => ∃ t',
      Calm a c (Sourced c.unique (⟨command, t, t'⟩ :: log) t') [] t' w' := by
  have older : ∀ {step s}, (∃ step ∈ log, step.Caches s) → ∃ x ∈ step :: log, x.Caches s :=
    fun ⟨step, member, caches⟩ => ⟨step, List.mem_cons_of_mem _ member, caches⟩
  have loaded : ∀ {t' w'}, Calm a c (Datum.RightWith (Datum.Copies fun _ s => (∃ step ∈ log, step.Caches s) ∨
      t'.Loads command.AsksFor s) c.unique (Taken log) t') [] t' w' →
      ∃ t', Calm a c (Sourced c.unique (⟨command, t, t'⟩ :: log) t') [] t' w' := by
    intro t' w' calm
    refine ⟨t', calm.mono fun _ _ right => right.mono (fun _ => .cons) fun copies => copies.mono fun s known => ?_⟩
    rcases known with known | loads
    · exact older known
    · exact ⟨_, List.mem_cons_self .., .loaded loads⟩
  by_cases about : command.IsAboutSessions
  · cases command with
    | createSession s =>
      refine (calm.createsCopy unbounded s).bind ?_
      rintro _ w' ⟨t', _, calm⟩
      refine ⟨t', calm.mono fun _ _ right => right.mono (fun _ => .cons) fun copies => copies.mono fun x known => ?_⟩
      rcases known with known | permits
      · exact older known
      · exact ⟨_, List.mem_cons_self .., .created permits⟩
    | deleteSession s =>
      refine (calm.deletesCopy unbounded s).bind ?_
      rintro _ w' ⟨t', _, calm⟩
      exact ⟨t', calm.mono fun _ _ right => right.mono (fun _ => .cons) fun copies => copies.mono fun _ => older⟩
    | refreshSession old tokens =>
      exact (calm.refreshesCopy unbounded old tokens).bind fun _ _ ⟨_, _, _, calm⟩ => loaded calm
    | findSessionByToken type text =>
      exact (calm.findsCopyByToken unbounded type text).bind fun _ _ ⟨_, calm⟩ => loaded calm
    | findSession id => exact (calm.findsCopy unbounded id).bind fun _ _ ⟨_, calm⟩ => loaded calm
    | createUser | updateUser | deleteUser | updatePassword | findUser | findUserByEmail | findPassword |
      countLoginAttempt | isLoginLocked | checkToken => cases about
  · refine (command.ensures_of_aside about unbounded calm).mono ?_
    rintro _ w' ⟨t', _, calm⟩
    exact ⟨t', calm.mono fun _ _ right => right.mono (fun _ => id) fun copies => copies.mono fun _ => older⟩

theorem History.sourced (history : History a c log w) (unbounded : ¬c.bounded) :
    Calm a c (Sourced c.unique log w.tables) [] w.tables w := by
  induction history with
  | start reliable uncached unlocked keyed unique =>
    exact .start unbounded reliable uncached unlocked keyed unique
  | wait later _ ih => exact ih.advanceTo fun bounded => absurd bounded unbounded
  | perform command _ runs ih =>
    obtain ⟨t', calm⟩ := (command.ensures_sourced unbounded ih).of_runs runs
    rwa [← calm.tables] at calm

/-- A world in whose database a user has a session, and in which nothing
else has happened. -/
def signedIn : World :=
  { tables := (({} : Tables).putUser ⟨.zero, "n", "a@b", "r", "", .epoch, .epoch⟩ "h").putSession
      ⟨1, .zero, "a", "b", .epoch, .epoch, "", "", .epoch, .epoch⟩ }

theorem History.signedIn : History ⟨default, ⟨5, .ofSeconds 60⟩⟩ ⟨False, fun _ => False, False⟩ [] signedIn :=
  .fresh ((Tables.keyed_empty.putUser _ _).putSession (by decide) (by decide)) nofun

set_option maxRecDepth 4000 in
/-- The session can be given new tokens there: its copies are dropped, and
it is read back and completed by its owner. -/
theorem exists_refreshed : ∃ s w', Runs ⟨False, fun _ => False, False⟩
    (refreshSession ⟨default, ⟨5, .ofSeconds 60⟩⟩ ⟨1, .zero, "a", "b", .epoch, .epoch, "", "", .epoch, .epoch⟩
      ⟨"c", "d", .epoch, .epoch, ""⟩).run signedIn (.ok (some s)) w' := by
  refine ⟨⟨1, .zero, "c", "d", .epoch, .epoch, "", "r", .epoch, .epoch⟩, ?_⟩
  exact ⟨_, .query False.elim (@Tables.Permits.updateTokens _ _ _ _
      ⟨1, .zero, "c", "d", .epoch, .epoch, "", "", .epoch, .epoch⟩ rfl rfl rfl rfl) False.elim
    (.call False.elim rfl (.call False.elim rfl (.call False.elim rfl
      (.load False.elim (.findSession "" rfl) False.elim (.call False.elim rfl (.call False.elim rfl
        (.load False.elim (.findUser .zero) False.elim (.call False.elim rfl (.call False.elim rfl
          (.wallClock False.elim .epoch (.wallClock False.elim .epoch
            (.call False.elim rfl (.call False.elim rfl .done)))))))))))))⟩

set_option maxRecDepth 4000 in
/-- A lookup may cache the session there, and the owner may be given
another role after that. Then the session is found with a role that is not
the owner's. -/
theorem exists_found_with_other_role : ∃ log w s w',
    History ⟨default, ⟨5, .ofSeconds 60⟩⟩ ⟨False, fun _ => False, False⟩ log w ∧
    Runs ⟨False, fun _ => False, False⟩ (findSessionByToken ⟨default, ⟨5, .ofSeconds 60⟩⟩ .access "a").run w
      (.ok (some s)) w' ∧ ¬w'.tables.HasRole s := by
  have loaded := History.signedIn.perform (.findSessionByToken .access "a")
    (.call False.elim rfl (.call False.elim rfl (.load False.elim
      (@Tables.Permits.findSessionByToken _ _ _ 1 ⟨1, .zero, "a", "b", .epoch, .epoch, "", "", .epoch, .epoch⟩ ""
        rfl rfl) False.elim
      (.call False.elim rfl (.call False.elim rfl (.load False.elim (.findUser .zero) False.elim
        (.call False.elim rfl (.call False.elim rfl (.wallClock False.elim .epoch (.wallClock False.elim .epoch
          (.call False.elim rfl (.call False.elim rfl .done))))))))))))
  have changed := loaded.perform (.updateUser ⟨.zero, "n", "a@b", "q", "", .epoch, .epoch⟩)
    (.query False.elim (@Tables.Permits.updateUser _ _ _ _ ⟨.zero, "n", "a@b", "q", "", .epoch, .epoch⟩ rfl rfl)
      False.elim (.call False.elim rfl (.call False.elim rfl (.call False.elim rfl
        (.load False.elim (.findUser .zero) False.elim (.call False.elim rfl (.call False.elim rfl .done)))))))
  refine ⟨_, _, ⟨1, .zero, "a", "b", .epoch, .epoch, "", "r", .epoch, .epoch⟩, _, changed,
    runs_read_of_cached False.elim rfl rfl rfl (Session.faithful (by decide) (by decide)) rfl, ?_⟩
  rintro ⟨row, held, same⟩
  obtain rfl := Option.some.inj held
  exact absurd same (by decide)

/-- A session that was given new tokens is yielded with the role that its
owner has. So is any session that is found, unless a copy of it was cached,
by an operation that created it or that loaded it with the role that its
owner had then. In particular no session is loaded that has no owner. -/
theorem roles_as_held (history : History a c log w) (unbounded : ¬c.bounded) :
    (∀ old tokens s w', Runs c (a.refreshSession old tokens).run w (.ok (some s)) w' → w'.tables.HasRole s) ∧
    (∀ type text s w', Runs c (a.findSessionByToken type text).run w (.ok (some s)) w' → w'.tables.HasRole s ∨
      w.HasCopy (Key.token text) s ∧ ∃ step ∈ log, step.Caches s) ∧
    ∀ id s w', Runs c (a.findSession id).run w (.ok (some s)) w' → w'.tables.HasRole s ∨
      w.HasCopy (Key.session id) s ∧ ∃ step ∈ log, step.Caches s := by
  have sourced := history.sourced unbounded
  have calm : Calm a c (Datum.RightWith (Datum.Copies fun d s =>
      w.HasCopy d.key s ∧ ∃ step ∈ log, step.Caches s) c.unique (Taken log) w.tables) [] w.tables w := by
    refine { sourced with entries := fun d e live => ?_ }
    obtain ⟨enabled, right⟩ := sourced.entries d e live
    refine ⟨enabled, right.mono (fun _ => id) ?_⟩
    rintro (mark | ⟨s, known, faithful, encoded⟩)
    · exact .inl mark
    · exact .inr ⟨s, ⟨⟨e, live, encoded⟩, known⟩, faithful, encoded⟩
  refine ⟨fun old tokens s w' runs => ?_, fun type text s w' runs => ?_, fun id s w' runs => ?_⟩
  · obtain ⟨t', _, found, after⟩ := (calm.refreshesCopy unbounded old tokens).of_runs runs
    rw [after.tables]
    exact (found s rfl).2.2
  · obtain ⟨found, after⟩ := (calm.findsCopyByToken unbounded type text).of_runs runs
    rw [after.tables]
    exact (found s rfl).symm.imp_left fun loads => loads.2.2
  · obtain ⟨found, after⟩ := (calm.findsCopy unbounded id).of_runs runs
    rw [after.tables]
    exact (found s rfl).symm.imp_left fun loads => loads.2.2

/-- A session of a user with a role has that role once it was given new
tokens. When a lookup has cached it and the user has another role since, it
is found with the role that it was loaded with. -/
theorem roles_as_held_or_loaded :
    (∃ w s w', History ⟨default, ⟨5, .ofSeconds 60⟩⟩ ⟨False, fun _ => False, False⟩ [] w ∧
      Runs ⟨False, fun _ => False, False⟩ (refreshSession ⟨default, ⟨5, .ofSeconds 60⟩⟩
        ⟨1, .zero, "a", "b", .epoch, .epoch, "", "", .epoch, .epoch⟩ ⟨"c", "d", .epoch, .epoch, ""⟩).run w
        (.ok (some s)) w' ∧ w'.tables.HasRole s) ∧
    ∃ log w s w', History ⟨default, ⟨5, .ofSeconds 60⟩⟩ ⟨False, fun _ => False, False⟩ log w ∧
      Runs ⟨False, fun _ => False, False⟩ (findSessionByToken ⟨default, ⟨5, .ofSeconds 60⟩⟩ .access "a").run w
        (.ok (some s)) w' ∧ ¬w'.tables.HasRole s ∧ w.HasCopy (Key.token "a") s ∧ ∃ step ∈ log, step.Caches s := by
  obtain ⟨s, w', refreshed⟩ := exists_refreshed
  obtain ⟨log, v, x, v', changed, found, other⟩ := exists_found_with_other_role
  have role := (roles_as_held .signedIn not_false).1 _ _ s w' refreshed
  have kept := (roles_as_held changed not_false).2.1 .access "a" x v' found
  exact ⟨⟨_, s, w', .signedIn, refreshed, role⟩, log, v, x, v', changed, found, other, kept.resolve_left other⟩

set_option maxRecDepth 4000 in
/-- A session that was cached when it was created is found with the role
that its owner had then, though the owner has another role since, and though
the owner is gone since. -/
theorem stale_role :
    (∃ log w s w', History ⟨default, ⟨5, .ofSeconds 60⟩⟩ ⟨False, fun _ => False, False⟩ log w ∧
      Runs ⟨False, fun _ => False, False⟩ (findSessionByToken ⟨default, ⟨5, .ofSeconds 60⟩⟩ .access "a").run w
        (.ok (some s)) w' ∧ s.role = "r" ∧
      w'.tables.users.find? s.userId = some (⟨.zero, "n", "a@b", "q", "", .epoch, .epoch⟩, "h")) ∧
    ∃ log w s w', History ⟨default, ⟨5, .ofSeconds 60⟩⟩ ⟨False, fun _ => False, False⟩ log w ∧
      Runs ⟨False, fun _ => False, False⟩ (findSessionByToken ⟨default, ⟨5, .ofSeconds 60⟩⟩ .access "a").run w
        (.ok (some s)) w' ∧ w'.tables.users.find? s.userId = none := by
  have fresh : History ⟨default, ⟨5, .ofSeconds 60⟩⟩ ⟨False, fun _ => False, False⟩ []
      { tables := ({} : Tables).putUser ⟨.zero, "n", "a@b", "r", "", .epoch, .epoch⟩ "h" } :=
    .fresh (Tables.keyed_empty.putUser _ _) nofun
  have created := fresh.perform (.createSession ⟨1, .zero, "a", "b", .epoch, .epoch, "", "r", .epoch, .epoch⟩)
    (.query False.elim (@Tables.Permits.createSession _ _
      ⟨1, .zero, "a", "b", .epoch, .epoch, "", "r", .epoch, .epoch⟩ 1 rfl (by decide) (by decide)) False.elim
      (.wallClock False.elim .epoch (.wallClock False.elim .epoch (.call False.elim rfl .done))))
  have changed := created.perform (.updateUser ⟨.zero, "n", "a@b", "q", "", .epoch, .epoch⟩)
    (.query False.elim (@Tables.Permits.updateUser _ _ _ _ ⟨.zero, "n", "a@b", "q", "", .epoch, .epoch⟩ rfl rfl)
      False.elim (.call False.elim rfl (.call False.elim rfl (.call False.elim rfl
        (.load False.elim (.findUser .zero) False.elim (.call False.elim rfl (.call False.elim rfl .done)))))))
  have deleted := created.perform (.deleteUser .zero)
    (.query False.elim (.deleteUser .zero) False.elim (.call False.elim rfl .done))
  refine ⟨⟨_, _, ⟨1, .zero, "a", "b", .epoch, .epoch, "", "r", .epoch, .epoch⟩, _, changed,
    runs_read_of_cached False.elim rfl rfl rfl (Session.faithful (by decide) (by decide)) rfl, rfl, rfl⟩, ?_⟩
  exact ⟨_, _, ⟨1, .zero, "a", "b", .epoch, .epoch, "", "r", .epoch, .epoch⟩, _, deleted,
    runs_read_of_cached False.elim rfl rfl rfl (Session.faithful (by decide) (by decide)) rfl, rfl⟩

end Accounts

end AccountCache
