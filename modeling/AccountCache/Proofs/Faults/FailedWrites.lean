import AccountCache.Proofs.Faults.Services
import AccountCache.Proofs.Interleaving.Unsteady
import AccountCache.Proofs.Sequential.Users

namespace AccountCache

open Database (Tables)
open Program (AsksOnly Course Ends)
open Simulation (Record Surroundings Unsteady World heard)

namespace Program

variable {I : Interface} {α β : Type} {p : Program I α} {q : Program I β} {talk : List (Exchange I)}

theorem Course.of_map {f : α → β} (course : (p.bind fun value => .done (f value)).Course talk q) :
    ∃ r, p.Course talk r ∧ q = r.bind fun value => .done (f value) := by
  induction p generalizing talk with
  | done value =>
    cases course with
    | stay => exact ⟨_, .stay, rfl⟩
  | ask request next ih =>
    cases course with
    | stay => exact ⟨_, .stay, rfl⟩
    | ask answer rest =>
      obtain ⟨r, course, same⟩ := ih answer rest
      exact ⟨r, .ask answer course, same⟩

end Program

namespace Simulation

variable {ι α : Type} [DecidableEq ι] {around : Surroundings} {world w : World} {clients ps : ι → Action α}
  {log : List (Record ι)}

/-- Over a database that does what is expected of one, nothing but an
accepted write changes a row. Refused ones and reads leave the tables
as they are. -/
theorem Unsteady.after_eq_before
    (lawful : ∀ t r answer t', around.database t r answer t' → Tables.Permits t r answer t')
    (run : Unsteady around world clients log w ps) : ∀ x ∈ log, x.after = x.before ∨
      ∃ r value, r.isRead = false ∧ (⟨x.effect, x.answer⟩ : Exchange effects) = ⟨.database r, .ok value⟩ := by
  induction run with
  | start => exact fun _ => nofun
  | wait _ _ ih => exact ih
  | crash _ _ _ _ _ ih => exact ih
  | step i _ _ meets ih =>
    refine List.forall_mem_cons.2 ⟨?_, ih⟩
    cases meets with
    | cache number answers => exact .inl answers.tables_eq
    | @database r answer tables may =>
      have permits := lawful _ _ _ _ may
      cases answer with
      | error e => exact .inl permits.eq_of_error
      | ok value =>
        cases read : r.isRead with
        | true => exact .inl (permits.eq_of_isRead read)
        | false => exact .inr ⟨r, value, read, rfl⟩
    | refused | wallClock | quiet => exact .inl rfl

end Simulation

namespace Accounts

variable {α β : Type} {a : Accounts} {known known' : Exchange effects → Prop} {r : Database.Request} {e : Error}
  {talk : List (Exchange effects)}

/-- How an operation that wrote comes to an error as it reads back what it
wrote: an update as it reads the row that it left, and a refresh as it reads
the session, or its owner. No other operation reads anything back. -/
inductive FailsToReread (known : Exchange effects → Prop) (e : Error) :
    {α : Type} → Job α → (r : Database.Request) → r.Result → Prop
  | user {user row : User} : FindsUser known row.id (.error e) →
    FailsToReread known e (.updateUser user) (.updateUser user) (some row)
  | session {old : Session} {tokens : SessionTokens} : FindsSession known old.id (.error e) →
    FailsToReread known e (.refreshSession old tokens) (.updateTokens old.id tokens) ()

theorem FailsToReread.surfaces {job : Job α} {value : r.Result} (fails : FailsToReread known e job r value) :
    Surfaces known e := by
  cases fails with
  | user ended => exact FindsUser.surfaces ended
  | session ended => exact FindsSession.surfaces ended

theorem Surfaces.mono (surfaces : Surfaces known e) (more : ∀ x, known x → known' x) : Surfaces known' e := by
  cases surfaces with
  | database heard => exact .database (more _ heard)
  | corrupt heard row => exact .corrupt (more _ heard) row
  | late heard => exact .late (more _ heard)

/-- What starts with a request to the database and ends in an error was
refused it, and that was all, or went on with the answer. There is no third
way, because nothing comes before the request. -/
theorem refused_or_continued {f : r.Result → Operation β}
    (course : Course (Operation.database r >>= f).run talk (.done (.error e))) :
    (∃ d, e = .database d ∧ talk = [⟨.database r, .error d⟩]) ∨
      ∃ value after, talk = ⟨.database r, .ok value⟩ :: after ∧ Course (f value).run after (.done (.error e)) := by
  obtain ⟨_, other⟩ | ⟨answer, after, rfl, further⟩ := course.of_ask
  · cases other
  · cases answer with
    | error d =>
      cases further
      exact .inl ⟨d, rfl, rfl⟩
    | ok value => exact .inr ⟨value, after, rfl, further⟩

theorem refused_of_course {f : r.Result → Operation β}
    (course : Course (Operation.database r >>= f).run talk (.done (.error e)))
    (safe : ∀ value known, (f value).run.Ends known fun outcome => outcome.isOk) :
    ∃ d, e = .database d ∧ talk = [⟨.database r, .error d⟩] := by
  refine (refused_or_continued course).resolve_right ?_
  rintro ⟨value, after, _, further⟩
  cases (safe value (· ∈ after)).of_course further fun _ => id

/-- An operation that writes and ends in an error was refused the write, or
failed to read back what it wrote, and wrote nothing more. -/
theorem Job.refused_or_reread {job : Job α} (write : job.write? = some r)
    (course : Course (job.perform a).run talk (.done (.error e))) :
    (∃ d, e = .database d ∧ talk = [⟨.database r, .error d⟩]) ∨
      ∃ value after, talk = ⟨.database r, .ok value⟩ :: after ∧ FailsToReread (· ∈ after) e job r value ∧
        ∀ x ∈ after, SparesRows x.request := by
  have drops : ∀ keys known, (ExceptT.lift (a.invalidate keys) : Operation Unit).run.Ends known
      fun outcome => outcome.isOk := fun keys _ => (Ends.any _).bind fun _ _ => rfl
  have after : ∀ keys, AsksOnly SparesRows (ExceptT.lift (a.invalidate keys) : Operation Unit).run := fun keys =>
    asks_lift (asks_invalidate covers_sparesRows keys)
  cases job with
  | createUser | updatePassword | deleteSession | createGrant =>
    cases write
    exact .inl (refused_of_course course fun _ => drops _)
  | deleteUser | createSession =>
    cases write
    exact .inl (refused_of_course course fun _ _ => ends_anyway fun _ => rfl)
  | updateUser user =>
    cases write
    refine (refused_or_continued course).imp_right fun ⟨found, later, same, further⟩ => ?_
    cases found with
    | none => cases further
    | some row =>
      refine ⟨some row, later, same, .user ?_, ?_⟩
      · exact Ends.of_course (ends_anyway fun _ => ends_findUser row.id) further fun _ => id
      · exact AsksOnly.of_course
          (asks_andThen (after _) fun _ => asks_findUser covers_sparesRows rfl fun _ _ => trivial) further
  | refreshSession old tokens =>
    cases write
    refine (refused_or_continued course).imp_right fun ⟨_, later, same, further⟩ => ?_
    refine ⟨(), later, same, .session ?_, ?_⟩
    · exact Ends.of_course (ends_anyway fun _ => ends_findSession old.id) further fun _ => id
    · exact AsksOnly.of_course (asks_andThen (after _) fun _ => asks_findSession old.id) further
  | _ => cases write

/-- An operation that writes makes a single write, whatever others do and
whatever fails. If it ends in an error, either its write was refused with
that error and nothing that it did changed a row, or its write was accepted,
and all that it heard after it are reads that brought the error: the
database refused to read the row back, or the owner of a session, others had
the lock of one of them for too long, or its entry made no sense. -/
theorem error_of_write (a : Accounts) (around : Surroundings)
    (lawful : ∀ t r answer t', around.database t r answer t' → Tables.Permits t r answer t')
    {α ι : Type} [DecidableEq ι] (job : Job α) (r : Database.Request) (write : job.write? = some r) (world : World)
    (clients : ι → Action (Option Error)) (i : ι) (own : clients i = (Service.job job).errand a)
    (log : List (Record ι)) (w : World) (ps : ι → Action (Option Error))
    (run : Unsteady around world clients log w ps) (e : Error) (failed : ps i = .done (some e)) :
    writes (heard i log) = [r] ∧
      ((∃ d, e = .database d ∧ ⟨.database r, .error d⟩ ∈ heard i log ∧
          ∀ x ∈ log, x.client = i → x.after = x.before) ∨
        ∃ value after, heard i log = ⟨.database r, .ok value⟩ :: after ∧ FailsToReread (· ∈ after) e job r value ∧
          Surfaces (fun x => x ∈ after ∧ SparesRows x.request) e) := by
  have course := run.course_of_done failed
  rw [own] at course
  obtain ⟨q, course, ended⟩ := course.of_map
  have failed : q = .done (.error e) := by
    cases q with
    | ask => cases ended
    | done outcome =>
      cases outcome with
      | ok => cases ended
      | error => cases ended; rfl
  subst failed
  have ways := Job.refused_or_reread write course
  have begun : heard i log ≠ [] := by
    obtain ⟨_, _, same⟩ | ⟨_, _, same, _⟩ := ways <;> exact same ▸ List.cons_ne_nil _ _
  have single : writes (heard i log) = [r] := by
    rw [(outcome_of_course a job course).1 begun, write]
    rfl
  refine ⟨single, ?_⟩
  obtain ⟨d, rfl, refused⟩ | ⟨value, after, same, fails, spares⟩ := ways
  · refine .inl ⟨d, rfl, refused ▸ List.mem_singleton_self _, fun x member mine => ?_⟩
    rcases run.after_eq_before lawful x member with same | ⟨r', value, _, exchange⟩
    · exact same
    · have accepted := Simulation.mem_heard member
      rw [exchange, mine, refused] at accepted
      cases List.mem_singleton.1 accepted
  · exact .inr ⟨value, after, same, fails, fails.surfaces.mono fun x member => ⟨member, spares x member⟩⟩

/-- New tokens may be in place though the refresh ends in an error. -/
theorem exists_unread_refresh : ∃ log w, ∃ ps : Unit → Action (Option Error),
    Unsteady ⟨Tables.Permits, fun _ => False⟩
      { tables := ({} : Tables).putSession ⟨1, .zero, "a", "b", .epoch, .epoch, "", "", .epoch, .epoch⟩ }
      (fun _ => (Service.job (.refreshSession ⟨1, .zero, "a", "b", .epoch, .epoch, "", "", .epoch, .epoch⟩
        ⟨"c", "d", .epoch, .epoch, ""⟩)).errand ⟨default, ⟨5, .ofSeconds 60⟩⟩) log w ps ∧
    ps () = .done (some (.database (.connection "down"))) ∧
    (w.tables.sessions.find? 1).map (·.accessToken) = some "c" := by
  have fresh := @Unsteady.start Unit _ _ ⟨Tables.Permits, fun _ => False⟩
    { tables := ({} : Tables).putSession ⟨1, .zero, "a", "b", .epoch, .epoch, "", "", .epoch, .epoch⟩ }
    fun _ => (Service.job (.refreshSession ⟨1, .zero, "a", "b", .epoch, .epoch, "", "", .epoch, .epoch⟩
      ⟨"c", "d", .epoch, .epoch, ""⟩)).errand ⟨default, ⟨5, .ofSeconds 60⟩⟩
  have written := fresh.step () rfl (.database (@Tables.Permits.updateTokens _ _ _ _
    ⟨1, .zero, "c", "d", .epoch, .epoch, "", "", .epoch, .epoch⟩ rfl rfl rfl rfl))
  have dropped := written.step () rfl (.of_serve 0 (.ok ()) rfl)
  have missed := dropped.step () rfl (.of_serve 0 (.ok none) rfl)
  have locked := missed.step () rfl (.of_serve 0 (.ok (some ⟨Key.session 1, _, _⟩)) rfl)
  have failed := locked.step () rfl (.database (.fail (.connection "down")))
  have freed := failed.step () rfl (.of_serve 0 (.ok true) rfl)
  exact ⟨_, _, _, freed, rfl, rfl⟩

/-- An update may have changed the row and a refresh the tokens, though they
end in an error. -/
theorem written_in_spite_of_error :
    (∃ log w, ∃ ps : Unit → Action (Option Error),
      Unsteady ⟨Tables.Permits, fun _ => False⟩
        { tables := ({} : Tables).putUser ⟨.zero, "n", "a@b", "r", "", .epoch, .epoch⟩ "h" }
        (fun _ => (Service.job (.updateUser ⟨.zero, "m", "a@b", "r", "", .epoch, .epoch⟩)).errand
          ⟨default, ⟨5, .ofSeconds 60⟩⟩) log w ps ∧
      ps () = .done (some (.database (.connection "down"))) ∧
      (w.tables.users.find? .zero).map (·.1.name) = some "m") ∧
    ∃ log w, ∃ ps : Unit → Action (Option Error),
      Unsteady ⟨Tables.Permits, fun _ => False⟩
        { tables := ({} : Tables).putSession ⟨1, .zero, "a", "b", .epoch, .epoch, "", "", .epoch, .epoch⟩ }
        (fun _ => (Service.job (.refreshSession ⟨1, .zero, "a", "b", .epoch, .epoch, "", "", .epoch, .epoch⟩
          ⟨"c", "d", .epoch, .epoch, ""⟩)).errand ⟨default, ⟨5, .ofSeconds 60⟩⟩) log w ps ∧
      ps () = .done (some (.database (.connection "down"))) ∧
      (w.tables.sessions.find? 1).map (·.accessToken) = some "c" := by
  refine ⟨?_, exists_unread_refresh⟩
  have fresh := @Unsteady.start Unit _ _ ⟨Tables.Permits, fun _ => False⟩
    { tables := ({} : Tables).putUser ⟨.zero, "n", "a@b", "r", "", .epoch, .epoch⟩ "h" }
    fun _ => (Service.job (.updateUser ⟨.zero, "m", "a@b", "r", "", .epoch, .epoch⟩)).errand
      ⟨default, ⟨5, .ofSeconds 60⟩⟩
  have written := fresh.step () rfl (.database (@Tables.Permits.updateUser _ _ _ _
    ⟨.zero, "m", "a@b", "r", "", .epoch, .epoch⟩ rfl rfl))
  have dropped := written.step () rfl (.of_serve 0 (.ok ()) rfl)
  have missed := dropped.step () rfl (.of_serve 0 (.ok none) rfl)
  have locked := missed.step () rfl (.of_serve 0 (.ok (some ⟨Key.user .zero, _, _⟩)) rfl)
  have failed := locked.step () rfl (.database (.fail (.connection "down")))
  have freed := failed.step () rfl (.of_serve 0 (.ok true) rfl)
  exact ⟨_, _, _, freed, rfl, rfl⟩

/-- A refresh that fails after the write has made that one write, and was
refused a read. -/
theorem refresh_failed_to_read : ∃ log : List (Record Unit),
    writes (heard () log) = [.updateTokens 1 ⟨"c", "d", .epoch, .epoch, ""⟩] ∧
      ((∃ d, Error.database (.connection "down") = .database d ∧
          ⟨.database (.updateTokens 1 ⟨"c", "d", .epoch, .epoch, ""⟩), .error d⟩ ∈ heard () log ∧
          ∀ x ∈ log, x.client = () → x.after = x.before) ∨
        ∃ value after, heard () log = ⟨.database (.updateTokens 1 ⟨"c", "d", .epoch, .epoch, ""⟩), .ok value⟩ :: after ∧
          FailsToReread (· ∈ after) (.database (.connection "down")) (.refreshSession
            ⟨1, .zero, "a", "b", .epoch, .epoch, "", "", .epoch, .epoch⟩ ⟨"c", "d", .epoch, .epoch, ""⟩)
            (.updateTokens 1 ⟨"c", "d", .epoch, .epoch, ""⟩) value ∧
          Surfaces (fun x => x ∈ after ∧ SparesRows x.request) (.database (.connection "down"))) := by
  obtain ⟨log, w, ps, run, ended, _⟩ := exists_unread_refresh
  exact ⟨log, error_of_write _ _ (fun _ _ _ _ => id) _ _ rfl _ _ () rfl log w ps run _ ended⟩

end Accounts

end AccountCache
