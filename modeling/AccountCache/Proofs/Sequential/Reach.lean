import AccountCache.Proofs.Sequential.Sessions

namespace AccountCache

open Database (Tables)
open Simulation (World Circumstances Ensures Runs)

namespace Accounts

/-- The operations on users and sessions. -/
inductive Command where
  | createUser (user : User) (hash : String)
  | updateUser (user : User)
  | deleteUser (id : Uuid)
  | updatePassword (id : Uuid) (hash : String)
  | findUser (id : Uuid)
  | findUserByEmail (address : String)
  | findPassword (id : Uuid)
  | countLoginAttempt (address : String)
  | isLoginLocked (address : String)
  | createSession (session : Session)
  | refreshSession (old : Session) (tokens : SessionTokens)
  | deleteSession (session : Session)
  | findSessionByToken (type : TokenType) (text : String)
  | findSession (id : Int)
  | checkToken (text : String)

namespace Command

def perform (a : Accounts) : Command → Action Unit
  | createUser user hash => do let _ ← (a.createUser user hash).run
  | updateUser user => do let _ ← (a.updateUser user).run
  | deleteUser id => do let _ ← (a.deleteUser id).run
  | updatePassword id hash => do let _ ← (a.updatePassword id hash).run
  | findUser id => do let _ ← (a.findUser id).run
  | findUserByEmail address => do let _ ← (a.findUserByEmail address).run
  | findPassword id => do let _ ← (a.findPassword id).run
  | countLoginAttempt address => do let _ ← (a.countLoginAttempt address).run
  | isLoginLocked address => do let _ ← (a.isLoginLocked address).run
  | createSession s => do let _ ← (a.createSession s).run
  | refreshSession old tokens => do let _ ← (a.refreshSession old tokens).run
  | deleteSession s => do let _ ← (a.deleteSession s).run
  | findSessionByToken type text => do let _ ← (a.findSessionByToken type text).run
  | findSession id => do let _ ← (a.findSession id).run
  | checkToken text => do let _ ← a.checkToken text

/-- Whether a session that is changed is given as the database holds it. -/
def Fits (t : Tables) : Command → Prop
  | refreshSession s _ | deleteSession s => t.Current s
  | _ => True

def IsAboutSessions : Command → Prop
  | createSession _ | refreshSession .. | deleteSession _ | findSessionByToken .. | findSession _ => True
  | _ => False

def IsDeletion : Command → Prop
  | deleteUser _ => True
  | _ => False

end Command

/-- An operation, with what the database held before it and after it. -/
structure Step where
  command : Command
  before : Tables
  after : Tables

/-- Whether an operation took an email from the user who had it, so that
nobody had it, without removing the user. -/
def Taken (log : List Step) (address : String) : Prop :=
  ∃ s ∈ log, ¬s.command.IsDeletion ∧ s.before.Lost s.after address

/-- Whether a session was asked for by a token under a type. -/
def Asked (log : List Step) (text : String) (type : TokenType) : Prop :=
  ∃ s ∈ log, s.command = .findSessionByToken type text

/-- Whether after some operation a session was held that cannot
be written. -/
def Unwritten (log : List Step) : Prop :=
  ∃ s ∈ log, s.after.Unwritable

/-- What is right after some operations. It depends on the emails that
they took, the tokens that they asked for, and the sessions that could not
be written. -/
def Recorded (unique : Prop) (log : List Step) (t : Tables) : Datum → Bytes → Prop :=
  Datum.RightWith (Datum.Marked (Asked log) (Unwritten log) t) unique (Taken log) t

/-- What operations may lead to one after the other, the latest first. -/
inductive Reach (a : Accounts) (c : Circumstances) : List Step → World → Prop
  | start {w} : w.Reliable → (∀ key, w.cached? key = none) → (∀ key, w.guard? key = none) → w.tables.Keyed →
    (c.unique → w.tables.Unique) → Reach a c [] w
  | wait {log w} (later) : Reach a c log w → Reach a c log (w.advanceTo later)
  | perform {log w w'} (command : Command) : Reach a c log w → command.Fits w.tables →
    Runs c (command.perform a) w () w' → Reach a c (⟨command, w.tables, w'.tables⟩ :: log) w'

variable {a : Accounts} {c : Circumstances} {log : List Step} {w w' : World} {t : Tables}

theorem Reach.fresh (keyed : t.Keyed) (unique : c.unique → t.Unique) : Reach a c [] { tables := t } :=
  .start ⟨⟨_, _, rfl⟩, fun _ => rfl⟩ (fun _ => rfl) (fun _ => rfl) keyed unique

theorem Taken.cons {s : Step} {address : String} (taken : Taken log address) : Taken (s :: log) address := by
  obtain ⟨step, member, keeps, lost⟩ := taken
  exact ⟨step, List.mem_cons_of_mem _ member, keeps, lost⟩

theorem Taken.of_lost {s : Step} {address : String} (keeps : ¬s.command.IsDeletion)
    (taken : Taken log address ∨ s.before.Lost s.after address) : Taken (s :: log) address :=
  taken.elim .cons fun lost => ⟨s, List.mem_cons_self .., keeps, lost⟩

theorem Asked.cons {s : Step} {text : String} {type : TokenType} (asked : Asked log text type) :
    Asked (s :: log) text type := by
  obtain ⟨step, member, same⟩ := asked
  exact ⟨step, List.mem_cons_of_mem _ member, same⟩

theorem Unwritten.cons {s : Step} (unwritten : Unwritten log) : Unwritten (s :: log) := by
  obtain ⟨step, member, unwritable⟩ := unwritten
  exact ⟨step, List.mem_cons_of_mem _ member, unwritable⟩

theorem Recorded.cons {unique : Prop} {s : Step} {d : Datum} {bytes : Bytes}
    (recorded : Recorded unique log t d bytes) : Recorded unique (s :: log) t d bytes :=
  Datum.RightWith.mono recorded (fun _ => .cons) fun marked => marked.mono (fun _ _ => .cons) .cons

/-- An operation that is not about sessions leaves copies of sessions alone,
and whatever else is cached right. -/
theorem Command.ensures_of_aside {told : Datum → Bytes → Prop} (command : Command)
    (aside : ¬command.IsAboutSessions) (unbounded : ¬c.bounded)
    (calm : Calm a c (Datum.RightWith told c.unique (Taken log) t) [] t w) :
    Ensures c (command.perform a) w fun _ w' => ∃ t', t'.sessions = t.sessions ∧
      Calm a c (Datum.RightWith told c.unique (Taken (⟨command, t, t'⟩ :: log)) t') [] t' w' := by
  have still : ∀ {t' w'}, t'.sessions = t.sessions → Calm a c (Datum.RightWith told c.unique (Taken log) t') [] t' w' →
      ∃ t', t'.sessions = t.sessions ∧
        Calm a c (Datum.RightWith told c.unique (Taken (⟨command, t, t'⟩ :: log)) t') [] t' w' := fun sessions calm =>
    ⟨_, sessions, calm.mono fun _ _ right => right.mono (fun _ => .cons) id⟩
  cases command with
  | createUser user hash =>
    refine (calm.createsUser unbounded user hash).bind ?_
    rintro _ w' ⟨t', sessions, calm⟩
    exact ⟨t', sessions, calm.mono fun _ _ right => right.mono (fun _ taken => .of_lost not_false taken) id⟩
  | updateUser user =>
    refine (calm.updatesUser unbounded user).bind ?_
    rintro _ w' ⟨t', sessions, _, calm⟩
    exact ⟨t', sessions, calm.mono fun _ _ right => right.mono (fun _ taken => .of_lost not_false taken) id⟩
  | deleteUser id => exact (calm.deletesUser unbounded id).bind fun _ _ ⟨_, sessions, calm⟩ => still sessions calm
  | updatePassword id hash =>
    exact (calm.updatesPassword unbounded id hash).bind fun _ _ ⟨_, sessions, calm⟩ => still sessions calm
  | findUser id => exact (calm.findsUser id fun _ => nofun).bind fun _ _ ⟨_, calm⟩ => still rfl calm
  | findUserByEmail address => exact (calm.findsUserByEmail address).bind fun _ _ ⟨_, calm⟩ => still rfl calm
  | findPassword id => exact (calm.findsPassword id fun _ => nofun).bind fun _ _ ⟨_, calm⟩ => still rfl calm
  | countLoginAttempt address => exact (calm.countLoginAttempt unbounded address).bind fun _ _ calm => still rfl calm
  | isLoginLocked address => exact (calm.isLoginLocked unbounded address).bind fun _ _ calm => still rfl calm
  | checkToken text => exact (calm.checksToken text).bind fun _ _ ⟨_, calm⟩ => still rfl calm
  | createSession | refreshSession | deleteSession | findSessionByToken | findSession => exact absurd trivial aside

/-- An operation leaves whatever is cached right. What it was told to
change has to be given as the database holds it, and nothing else is
asked of it. -/
theorem Command.ensures (command : Command) (unbounded : ¬c.bounded) (calm : Calm a c (Recorded c.unique log t) [] t w)
    (fits : command.Fits t) : Ensures c (command.perform a) w fun _ w' => ∃ t',
      Calm a c (Recorded c.unique (⟨command, t, t'⟩ :: log) t') [] t' w' := by
  have still : ∀ {t' w'}, Calm a c (Recorded c.unique log t') [] t' w' → ∃ t',
      Calm a c (Recorded c.unique (⟨command, t, t'⟩ :: log) t') [] t' w' := fun calm =>
    ⟨_, calm.mono fun _ _ => .cons⟩
  by_cases about : command.IsAboutSessions
  · cases command with
    | createSession s =>
      refine (calm.createsSession unbounded s).bind ?_
      rintro _ w' ⟨t', _, calm⟩
      refine ⟨t', calm.mono fun _ _ right => right.mono (fun _ => .cons) fun marked => ?_⟩
      refine marked.mono (fun _ _ => .cons) fun unable => ?_
      exact unable.elim .cons fun unwritable => ⟨_, List.mem_cons_self .., unwritable⟩
    | refreshSession old tokens =>
      exact (calm.refreshesSession unbounded fits tokens).bind fun _ _ ⟨_, _, calm⟩ => still calm
    | deleteSession s => exact (calm.deletesSession unbounded fits).bind fun _ _ ⟨_, _, calm⟩ => still calm
    | findSessionByToken type text =>
      have asking : Calm a c (Recorded c.unique (⟨.findSessionByToken type text, t, t⟩ :: log) t) [] t w :=
        calm.mono fun _ _ => .cons
      refine (asking.findsSessionByToken unbounded type text ⟨_, List.mem_cons_self .., rfl⟩).bind ?_
      exact fun _ _ ⟨_, calm⟩ => ⟨t, calm⟩
    | findSession id => exact (calm.findsSession unbounded id).bind fun _ _ ⟨_, calm⟩ => still calm
    | createUser | updateUser | deleteUser | updatePassword | findUser | findUserByEmail | findPassword |
      countLoginAttempt | isLoginLocked | checkToken => cases about
  · refine (command.ensures_of_aside about unbounded calm).mono ?_
    rintro _ w' ⟨t', sessions, calm⟩
    refine ⟨t', calm.mono fun _ _ right => right.mono (fun _ => id) fun marked => ?_⟩
    exact (marked.mono (fun _ _ => .cons) .cons).of_sessions_eq sessions

/-- Whatever is cached is right after every operation, marks included, and
no lock is taken. -/
theorem Reach.recorded (reach : Reach a c log w) (unbounded : ¬c.bounded) :
    Calm a c (Recorded c.unique log w.tables) [] w.tables w := by
  induction reach with
  | start reliable uncached unlocked keyed unique =>
    exact .start unbounded reliable uncached unlocked keyed unique
  | wait later _ ih => exact ih.advanceTo fun bounded => absurd bounded unbounded
  | perform command _ fits runs ih =>
    obtain ⟨t', calm⟩ := (command.ensures unbounded ih fits).of_runs runs
    rwa [← calm.tables] at calm

theorem Reach.calm (reach : Reach a c log w) (unbounded : ¬c.bounded) :
    Calm a c (Datum.Right c.unique (Taken log) w.tables) [] w.tables w :=
  (reach.recorded unbounded).mono fun _ _ right => Datum.RightWith.right right rfl

end Accounts

end AccountCache
