import AccountCache.Proofs.Coherence.Renewing
import AccountCache.Proofs.Faults.Tolerance
import AccountCache.Proofs.Sequential.Calm

namespace AccountCache

open Cache (nilBytes)
open Database (Tables)
open Simulation (Event World Interleaved exchanges)

namespace Accounts

variable {ι : Type} {a : Accounts} {user : User} {w : World} {trace : List (Event (Option ι))} {i : Option ι}

section

variable {known : Exchange effects → Prop}

/-- With a disabled cache a read is a load. -/
theorem ends_read_of_disabled {α : Type} [Storable α] (disabled : a.cache.policy.disabled = true) {key : String}
    {load : Operation (Option α)} {loaded : Except Error (Option α) → Prop} (loads : load.run.Ends known loaded) :
    (a.read key load).run.Ends known loaded := by
  have bypassed : a.cache.getOrLock key = .done (.ok .bypass) := if_pos disabled
  have looked : (a.lookup key : Operation (Lookup α)).run.Ends known (· = .ok (.load none)) := by
    rw [lookup, Operation.cache, bypassed]
    exact rfl
  refine looked.bind (f := ExceptT.bindCont _) ?_
  rintro _ rfl
  exact ends_lift loads fun outcome ended => ends_anyway fun _ => ended

theorem ends_findUser_of_disabled (disabled : a.cache.policy.disabled = true) (id : Uuid) :
    (a.findUser id).run.Ends known (Answered known (.findUser id)) := by
  refine (ends_read_of_disabled disabled (ends_then (ends_database _) fun found _ => ?_)).mono fun _ => .of_then
  cases found with
  | none => exact ends_anyway fun _ => rfl
  | some value => exact ends_anyway fun _ => rfl

/-- An update yields the row that it reads again, with a disabled cache from
the database, where no reader can come between. -/
theorem ends_updateUser (user : User) : (a.updateUser user).run.Ends known
    (Then (Answered known (.updateUser user)) fun
      | some row => fun outcome => FindsUser known row.id outcome ∧
        (a.cache.policy.disabled = true → Answered known (.findUser row.id) outcome)
      | none => (· = .ok none)) := by
  refine ends_then (ends_database _) fun found _ => ?_
  cases found with
  | none => rfl
  | some row =>
    refine ends_anyway fun _ => ?_
    cases disabled : a.cache.policy.disabled with
    | true => exact (ends_findUser_of_disabled disabled row.id).mono fun _ told => ⟨.loaded told, fun _ => told⟩
    | false => exact (ends_findUser row.id).mono fun _ told => ⟨told, nofun⟩

end

/-- A client who updates a user, and others who look the user up. -/
def updating (a : Accounts) (user : User) : Option ι → Action (Except Error (Option User))
  | none => (a.updateUser user).run
  | some _ => (a.findUser user.id).run

/-- A copy of a renewed row is read back as that row. -/
theorem eq_of_renewed {id : Uuid} {t₀ t : Tables} {bytes : Bytes} {stored row : User}
    (renewed : Renewed id t₀ t trace bytes) (holds : row? t id = some stored) (filled : bytes ≠ nilBytes)
    (decoded : Storable.decode? bytes = some row) :
    row = stored ∨ Raced trace (Key.user id) ∧ row? t₀ id = some row := by
  rcases renewed with copy | ⟨raced, copy⟩
  · rw [holds] at copy
    exact .inl (Option.some.inj (decoded.symm.trans ((User.faithful stored).decode?_of_encode? copy)))
  · refine .inr ⟨raced, ?_⟩
    cases older : row? t₀ id with
    | none =>
      rw [older] at copy
      exact absurd (Option.some.inj copy).symm filled
    | some old =>
      rw [older] at copy
      rw [← decoded, (User.faithful old).decode?_of_encode? copy]

theorem conforms_updating (i : Option ι) : (updating a user i).Conforms
    (Stance.Moves a (fun _ _ => True) (.updateUser user)) (fun s _ => s.IsReading) (beginning i) := by
  cases i with
  | none => exact Write.conforms_updateUser user
  | some i => exact (Follows.findUser user.id).conforms []

variable [DecidableEq ι] {mayPass : World → Instant → Prop} {world : World}
  {ps : Option ι → Action (Except Error (Option User))}

theorem committed_of_interleaved (run : Interleaved mayPass world (updating a user : Option ι → _) trace w ps)
    (reliable : world.Reliable) : ∃ s, Committed user trace w s := by
  have stands := run.invariant
    (fun trace w places => Committed user trace w (places none) ∧ ∀ j, places (some j) ≠ .pending)
    (fun _ => Stance.Moves a (fun _ _ => True) (.updateUser user)) beginning
    ⟨⟨reliable, fun _ => nofun, fun _ => nofun⟩, fun _ => nofun⟩ conforms_updating
    (fun h _ => ⟨⟨h.1.reliable.advanceTo _, h.1.wrote, h.1.loaded⟩, h.2⟩)
    fun h answers move => h.1.step h.2 answers move
  obtain ⟨places, ⟨committed, _⟩, _⟩ := stands
  exact ⟨_, committed⟩

theorem renewing_of_interleaved (run : Interleaved mayPass world (updating a user : Option ι → _) trace w ps)
    (enabled : a.cache.policy.disabled = false) (reliable : world.Reliable) :
    ∃ places passed, Renewing user world.tables trace w places passed := by
  have first : Renewing user world.tables [] world (beginning : Option ι → Stance) [] := by
    refine ⟨reliable, .pending rfl, fun _ => ⟨[], rfl⟩, fun i => ?_, fun _ some => absurd rfl some, fun _ => nofun,
      fun _ => nofun⟩
    cases i with
    | none | some => exact fun _ => nofun
  have stands := run.invariant (fun trace w places => ∃ passed, Renewing user world.tables trace w places passed)
    (fun _ => Stance.Moves a (fun _ _ => True) (.updateUser user)) beginning ⟨[], first⟩ conforms_updating
    (fun ⟨passed, h⟩ _ => ⟨passed, h.wait _⟩) fun ⟨_, h⟩ answers move => h.step enabled answers move
  obtain ⟨places, renewing, _⟩ := stands
  exact ⟨places, renewing⟩

theorem mem_of_mem_exchanges {e : Effect} {answer : e.Answer}
    (heard : (⟨e, answer⟩ : Exchange effects) ∈ exchanges i trace) : ⟨i, e, answer⟩ ∈ trace := by
  obtain ⟨⟨_, _, _⟩, listed, same⟩ := List.mem_map.1 heard
  cases same
  obtain ⟨member, own⟩ := List.mem_filter.1 (List.mem_reverse.1 listed)
  cases of_decide_eq_true own
  exact member

/-- An update that ends with a row has written it: the row is the one
that its write left in the database, or else the one that was there
before, and a reader who had asked the database before the write cached
that one after the update had dropped its copies. Any number of readers
look the user up meanwhile. -/
theorem update_yields_own_write (run : Interleaved mayPass world (updating a user : Option ι → _) trace w ps)
    (reliable : world.Reliable) {row : User} (returned : ps none = .done (.ok (some row))) :
    ∃ stored, Wrote trace user stored ∧ row? w.tables user.id = some stored ∧
      (row = stored ∨ Raced trace (Key.user user.id) ∧ row? world.tables user.id = some row) := by
  obtain ⟨s, committed⟩ := committed_of_interleaved run reliable
  have course := run.course none
  rw [returned] at course
  have told := Program.Ends.of_course (ends_updateUser user) course fun _ heard => heard
  cases told with
  | @continued found _ answered told =>
    cases found with
    | none => cases told
    | some stored =>
      obtain ⟨finds, direct⟩ := told
      have wrote : Wrote trace user stored := by
        cases answered with
        | answered heard => exact mem_of_mem_exchanges heard
      obtain ⟨_, same, holds⟩ := committed.wrote stored wrote
      refine ⟨stored, wrote, holds, ?_⟩
      rw [same] at finds direct
      have loaded : Answered (· ∈ exchanges none trace) (.findUser user.id) (.ok (some row)) → row = stored := by
        intro loads
        cases loads with
        | answered heard =>
          exact Option.some.inj ((committed.loaded _ (mem_of_mem_exchanges heard)).2.symm.trans holds)
      cases enabled : a.cache.policy.disabled with
      | true => exact .inl (loaded (direct enabled))
      | false =>
        obtain ⟨places, passed, renewing⟩ := renewing_of_interleaved run enabled reliable
        cases finds with
        | hit heard filled decoded =>
          have renewed := (renewing.gets _ (mem_of_mem_exchanges heard)).2 (renewing.wrote stored wrote)
          exact eq_of_renewed renewed holds filled decoded
        | loaded loads => exact .inl (loaded loads)

def someone : User := ⟨.zero, "n", "a@b", "r", "", .epoch, .epoch⟩

def renamed : User := { someone with name := "m" }

def inhabited : World := { tables := ({} : Tables).putUser someone "h" }

theorem answers_renamed (tables : w.tables = inhabited.tables) (now : w.wallClock.utc = .epoch)
    (fine : w.databaseFault (.updateUser renamed) = none) :
    w.Answers (.database (.updateUser renamed)) (.ok (some renamed))
      { w with tables := inhabited.tables.putUser renamed "h" } := by
  have lower : renamed.email.map Char.toLower = renamed.email :=
    String.toList_inj.1 (by rw [String.toList_map]; rfl)
  have found : inhabited.tables.users.find? renamed.id = some (someone, "h") := rfl
  have served : w.serveDatabase none (.updateUser renamed) =
      (.ok (some renamed), { w with tables := inhabited.tables.putUser renamed "h" }) := by
    simp only [World.serveDatabase, Tables.serve, Tables.updateUser, tables, now, found, lower]
    rfl
  have answers := World.Answers.database (w := w) (.updateUser renamed)
  rwa [fine, served] at answers

theorem answers_found {id : Uuid} (row : User) (found : row? w.tables id = some row)
    (fine : w.databaseFault (.findUser id) = none) : w.Answers (.database (.findUser id)) (.ok (some row)) w := by
  have answers := World.Answers.database (w := w) (.findUser id)
  have served : w.serveDatabase none (.findUser id) = (.ok (some row), w) := by
    rw [← found]
    rfl
  rwa [fine, served] at answers

/-- Who finds a copy of a row in the cache yields the row. -/
theorem findUser_of_hit (a : Accounts) (enabled : a.cache.policy.disabled = false) (id : Uuid) {found : User}
    {bytes : Bytes} (encoded : Storable.encode? found = some bytes) : ∃ next, (a.findUser id).run =
      .ask (.cache (.get (Key.user id))) next ∧ next (.ok (some bytes)) = .done (.ok (some found)) := by
  have decoded : a.decode (Key.user id) (.ofBytes bytes) = (pure (some found) : Operation (Option User)) :=
    Calm.decode_ofBytes _ rfl (by rintro _ ⟨⟩; exact User.faithful found) encoded
  have locks : a.cache.getOrLock (Key.user id) = _ := if_neg (Bool.eq_false_iff.1 enabled)
  refine ⟨_, by rw [findUser, Accounts.read, lookup, Operation.cache, locks]; rfl, ?_⟩
  simp only [Program.bind_done, Program.pure_eq, Option.map_some, Except.mapError, ExceptT.bindCont, decoded]
  rfl

set_option maxRecDepth 4000 in
/-- A reader asks the database after an update has written and before it
drops its copies, and caches the answer after that. The update finds that
copy, and yields its own row. -/
theorem update_yields_own_write_beside_reader : inhabited.Reliable ∧
    ∃ trace w, ∃ ps : Option Unit → Action (Except Error (Option User)),
      Interleaved (fun _ _ => True) inhabited (updating ⟨default, ⟨5, .ofSeconds 60⟩⟩ renamed) trace w ps ∧
      ps (some ()) = .done (.ok (some renamed)) ∧ ps none = .done (.ok (some renamed)) ∧
      row? w.tables .zero = some renamed := by
  have reliable : inhabited.Reliable := ⟨⟨_, _, rfl⟩, fun _ => rfl⟩
  have fresh : Interleaved (fun _ _ => True) inhabited (updating ⟨default, ⟨5, .ofSeconds 60⟩⟩
    renamed : Option Unit → _) [] inhabited _ := .start
  have written := fresh.step none rfl (answers_renamed rfl rfl rfl)
  have looked := written.call (some ()) rfl _ rfl
  have locked := looked.call (some ()) rfl _ rfl
  have loaded := locked.step (some ()) rfl (answers_found renamed rfl rfl)
  have dropped := loaded.call none rfl _ rfl
  have filled := dropped.call (some ()) rfl _ rfl
  have released := filled.call (some ()) rfl (.ok true) rfl
  have encoded : Storable.encode? renamed = some _ := rfl
  obtain ⟨next, asks, ends⟩ := findUser_of_hit ⟨default, ⟨5, .ofSeconds 60⟩⟩ rfl renamed.id encoded
  have hit := released.call none asks (.ok (some _)) rfl
  obtain ⟨stored, _, holds, same | ⟨⟨_, _, _, _, _, order⟩, _⟩⟩ := update_yields_own_write hit reliable ends
  · exact ⟨reliable, _, _, _, hit, rfl, ends, holds.trans (congrArg some same.symm)⟩
  · cases order.eq_of_length rfl

set_option maxRecDepth 4000 in
/-- A reader asks the database before an update and caches the answer after
it, and the update yields the row as it was before. -/
theorem update_yields_older_row : inhabited.Reliable ∧
    ∃ trace w, ∃ ps : Option Unit → Action (Except Error (Option User)),
      Interleaved (fun _ _ => True) inhabited (updating ⟨default, ⟨5, .ofSeconds 60⟩⟩ renamed) trace w ps ∧
      Wrote trace renamed renamed ∧ ps none = .done (.ok (some someone)) ∧ someone ≠ renamed := by
  have fresh : Interleaved (fun _ _ => True) inhabited (updating ⟨default, ⟨5, .ofSeconds 60⟩⟩
    renamed : Option Unit → _) [] inhabited _ := .start
  have looked := fresh.call (some ()) rfl _ rfl
  have locked := looked.call (some ()) rfl _ rfl
  have loaded := locked.step (some ()) rfl (answers_found someone rfl rfl)
  have written := loaded.step none rfl (answers_renamed rfl rfl rfl)
  have dropped := written.call none rfl _ rfl
  have filled := dropped.call (some ()) rfl _ rfl
  have released := filled.call (some ()) rfl (.ok true) rfl
  have encoded : Storable.encode? someone = some _ := rfl
  obtain ⟨next, asks, ends⟩ := findUser_of_hit ⟨default, ⟨5, .ofSeconds 60⟩⟩ rfl renamed.id encoded
  have hit := released.call none asks (.ok (some _)) rfl
  exact ⟨⟨⟨_, _, rfl⟩, fun _ => rfl⟩, _, _, _, hit, .tail _ (.tail _ (.tail _ (.tail _ (.head _)))), ends, by decide⟩

end Accounts

end AccountCache
