import AccountCache.Accounts.Permissions
import AccountCache.Proofs.Faults.Course

namespace AccountCache

open Cache (nilBytes)
open Program (Ends)

namespace Accounts

variable {known : Exchange effects → Prop} {a : Accounts} {α β : Type}

/-- The outcome of a request to the database: what the database answered. -/
inductive Answered (known : Exchange effects → Prop) (r : Database.Request) : Except Error r.Result → Prop
  | failed {e} : known ⟨.database r, .error e⟩ → Answered known r (.error (.database e))
  | answered {value} : known ⟨.database r, .ok value⟩ → Answered known r (.ok value)

/-- The outcome of what goes on with a value, unless it comes to an
error before. -/
inductive Then (first : Except Error α → Prop) (rest : α → Except Error β → Prop) : Except Error β → Prop
  | broken {e} : first (.error e) → Then first rest (.error e)
  | continued {value outcome} : first (.ok value) → rest value outcome → Then first rest outcome

/-- The outcome of a read: the value that it was told is cached, what it
loaded, or one of two errors of its own. -/
inductive Reads [Storable α] (known : Exchange effects → Prop) (key : String)
    (loaded : Except Error (Option α) → Prop) : Except Error (Option α) → Prop
  | absent : known ⟨.cache (.get key), .ok (some nilBytes)⟩ → Reads known key loaded (.ok none)
  | hit {bytes value} : known ⟨.cache (.get key), .ok (some bytes)⟩ → bytes ≠ nilBytes →
    Storable.decode? bytes = some value → Reads known key loaded (.ok (some value))
  /-- There is an entry that is no value of the type kept there. -/
  | corrupt {bytes} : known ⟨.cache (.get key), .ok (some bytes)⟩ → bytes ≠ nilBytes →
    (Storable.decode? bytes : Option α) = none → Reads known key loaded (.error (.corrupt key))
  /-- Others had the lock, and no value came from them in time. -/
  | late {expiry tries waited} : known ⟨.cache (.acquire key expiry tries), .ok none⟩ →
    Reads known key loaded (.error (.cache (.waitTooLong key waited)))
  | loaded {outcome} : loaded outcome → Reads known key loaded outcome

/-- The errors that may come out of an operation. Those of a backend are not
among them, for operations go on without the cache then. -/
inductive Surfaces (known : Exchange effects → Prop) : Error → Prop
  | database {r e} : known ⟨.database r, .error e⟩ → Surfaces known (.database e)
  | corrupt {key bytes} : known ⟨.cache (.get key), .ok (some bytes)⟩ → bytes ≠ nilBytes →
    Surfaces known (.corrupt key)
  | late {key expiry tries waited} : known ⟨.cache (.acquire key expiry tries), .ok none⟩ →
    Surfaces known (.cache (.waitTooLong key waited))

section

variable {e : Error}

theorem Answered.surfaces {r : Database.Request} (outcome : Answered known r (.error e)) : Surfaces known e := by
  cases outcome with
  | failed heard => exact .database heard

theorem Then.surfaces {first : Except Error α → Prop} {rest : α → Except Error β → Prop}
    (outcome : Then first rest (.error e)) (before : first (.error e) → Surfaces known e)
    (after : ∀ value, first (.ok value) → rest value (.error e) → Surfaces known e) : Surfaces known e := by
  cases outcome with
  | broken ended => exact before ended
  | continued ended ended' => exact after _ ended ended'

theorem Reads.surfaces [Storable α] {key : String} {loaded : Except Error (Option α) → Prop}
    (outcome : Reads known key loaded (.error e)) (loads : loaded (.error e) → Surfaces known e) :
    Surfaces known e := by
  cases outcome with
  | corrupt heard row _ => exact .corrupt heard row
  | late heard => exact .late heard
  | loaded ended => exact loads ended

end

theorem ends_database (r : Database.Request) : (Operation.database r).run.Ends known (Answered known r) := by
  intro answer heard
  cases answer with
  | ok value => exact .answered heard
  | error e => exact .failed heard

section

variable {first : Except Error α → Prop} {ends : Except Error β → Prop}

theorem ends_andThen {p : Operation α} {f : α → Operation β} (before : p.run.Ends known first)
    (rest : ∀ value, first (.ok value) → (f value).run.Ends known ends)
    (broken : ∀ e, first (.error e) → ends (.error e)) : (p >>= f).run.Ends known ends := by
  refine before.bind (f := ExceptT.bindCont f) fun outcome ended => ?_
  cases outcome with
  | ok value => exact rest value ended
  | error e => exact broken e ended

theorem ends_then {p : Operation α} {f : α → Operation β} {rest : α → Except Error β → Prop}
    (before : p.run.Ends known first) (after : ∀ value, first (.ok value) → (f value).run.Ends known (rest value)) :
    (p >>= f).run.Ends known (Then first rest) :=
  ends_andThen before (fun value ended => (after value ended).mono fun _ => .continued ended) fun _ => .broken

theorem ends_lift {p : Action α} {post : α → Prop} {f : α → Operation β} (before : p.Ends known post)
    (rest : ∀ value, post value → (f value).run.Ends known ends) : (ExceptT.lift p >>= f).run.Ends known ends := by
  have lifted : (ExceptT.lift p : Operation α).run.Ends known fun outcome =>
      ∃ value, outcome = .ok value ∧ post value := before.bind fun value ended => ⟨value, rfl, ended⟩
  refine ends_andThen lifted ?_ ?_
  · rintro _ ⟨_, ⟨⟩, ended⟩
    exact rest _ ended
  · rintro _ ⟨_, ⟨⟩, _⟩

/-- Nothing that an action without errors does changes the outcome, whatever
it asks for. -/
theorem ends_anyway {p : Action α} {f : α → Operation β} (rest : ∀ value, (f value).run.Ends known ends) :
    (ExceptT.lift p >>= f).run.Ends known ends :=
  ends_lift (.any p) fun value _ => rest value

end

/-- The outcome of asking for a value or the right to compute it. -/
inductive Gets (known : Exchange effects → Prop) (key : String) : Except Cache.Error Cache.Lookup → Prop
  | hit {bytes} : known ⟨.cache (.get key), .ok (some bytes)⟩ → Gets known key (.ok (.hit (.ofBytes bytes)))
  | owner (lock) : Gets known key (.ok (.owner lock))
  | bypass : Gets known key (.ok .bypass)
  | late {expiry tries waited} : known ⟨.cache (.acquire key expiry tries), .ok none⟩ →
    Gets known key (.error (.waitTooLong key waited))

theorem ends_checkCache (key : String) : (Cache.Manager.checkCache key).Ends known
    fun found => ∀ cached, found = some cached → Gets known key (.ok (.hit cached)) := by
  intro answer heard
  cases answer with
  | ok found =>
    intro cached same
    obtain ⟨bytes, rfl, rfl⟩ := Option.map_eq_some_iff.1 same
    exact .hit heard
  | error e => exact fun _ _ _ => nofun

theorem ends_tryLock (m : Cache.Manager) (key : String) : (m.tryLock key).Ends known fun attempt =>
    attempt = .contended → ∃ expiry tries, known ⟨.cache (.acquire key expiry tries), .ok none⟩ := by
  intro answer heard
  rcases answer with e | _ | lock
  · exact fun _ _ => nofun
  · exact fun _ => ⟨_, _, heard⟩
  · exact nofun

theorem ends_poll (m : Cache.Manager) (key : String) : (m.poll key).Ends known
    fun found => ∀ lookup, found = some lookup → Gets known key (.ok lookup) := by
  refine (Ends.any (Cache.Manager.isLocked key)).bind fun taken _ => ?_
  cases taken with
  | true => exact fun _ => nofun
  | false =>
    refine (ends_checkCache key).bind fun found hit => ?_
    cases found with
    | some cached =>
      rintro _ ⟨⟩
      exact hit cached rfl
    | none =>
      refine (Ends.any (m.tryLock key)).bind fun attempt _ => ?_
      cases attempt with
      | acquired lock =>
        rintro _ ⟨⟩
        exact .owner lock
      | unavailable =>
        rintro _ ⟨⟩
        exact .bypass
      | contended => exact fun _ => nofun

theorem ends_getOrLock (m : Cache.Manager) (key : String) : (m.getOrLock key).Ends known (Gets known key) := by
  rw [Cache.Manager.getOrLock]
  split
  · exact .bypass
  · refine (ends_checkCache key).bind fun found hit => ?_
    cases found with
    | some cached => exact hit cached rfl
    | none =>
      refine (ends_tryLock m key).bind fun attempt refused => ?_
      cases attempt with
      | acquired lock => exact .owner lock
      | unavailable => exact .bypass
      | contended =>
        obtain ⟨expiry, tries, heard⟩ := refused rfl
        refine .of_conforms ?_ trivial
        refine m.conforms_wait (Hearing.patient known) (fun _ => True) (fun sound _ => ?_)
          (fun _ _ waited _ => .late heard) trivial
        refine (Ends.conforms fun _ => ends_poll m key).mono fun sound found told => ?_
        cases found with
        | none => trivial
        | some lookup => exact fun holds => told holds lookup rfl

section

variable [Storable α] {key : String} {loaded : Except Error (Option α) → Prop}

theorem ends_decode {bytes : Bytes} (heard : known ⟨.cache (.get key), .ok (some bytes)⟩) :
    (a.decode key (.ofBytes bytes) : Operation (Option α)).run.Ends known (Reads known key loaded) := by
  rw [Cache.Cached.ofBytes]
  split
  · next mark =>
    subst mark
    exact .absent heard
  · next row =>
    rw [decode]
    split
    · next value decoded => exact .hit heard row decoded
    · next undecodable =>
      exact ends_anyway fun _ => ends_anyway fun _ => .corrupt heard row undecodable

theorem ends_lookup (a : Accounts) (key : String) (loaded : Except Error (Option α) → Prop) :
    (a.lookup key : Operation (Lookup α)).run.Ends known fun outcome =>
      (∀ value, outcome = .ok (.cached value) → Reads known key loaded (.ok value)) ∧
      ∀ e, outcome = .error e → Reads known key loaded (.error e) := by
  have got : (Operation.cache (a.cache.getOrLock key)).run.Ends known fun outcome =>
      ∃ lookup, outcome = lookup.mapError Error.cache ∧ Gets known key lookup :=
    (ends_getOrLock a.cache key).bind fun lookup told => ⟨lookup, rfl, told⟩
  refine ends_andThen got ?_ ?_
  · rintro _ ⟨_, same, told⟩
    cases told with
    | hit heard =>
      obtain rfl := Except.ok.inj same
      have decoded : (a.decode key _ : Operation (Option α)).run.Ends known (Reads known key loaded) :=
        ends_decode heard
      refine ends_andThen decoded (fun value ended => ⟨?_, fun _ => nofun⟩) fun e ended => ⟨fun _ => nofun, ?_⟩
      · rintro _ ⟨⟩
        exact ended
      · rintro _ ⟨⟩
        exact ended
    | owner | bypass =>
      obtain rfl := Except.ok.inj same
      exact ⟨fun _ => nofun, fun _ => nofun⟩
    | late => cases same
  · rintro _ ⟨_, same, told⟩
    cases told with
    | late heard =>
      obtain rfl := Except.error.inj same
      refine ⟨fun _ => nofun, ?_⟩
      rintro _ ⟨⟩
      exact .late heard
    | hit | owner | bypass => cases same

/-- Whatever the cache answers, a read yields what it was told is
cached, or what it loads, unless it waited in vain or found an entry
that makes no sense. -/
theorem ends_read {load : Operation (Option α)} (loads : load.run.Ends known loaded) :
    (a.read key load).run.Ends known (Reads known key loaded) := by
  refine ends_andThen (ends_lookup a key loaded) (fun lookup told => ?_) fun e told => told.2 e rfl
  cases lookup with
  | cached value => exact told.1 value rfl
  | load lock => exact ends_lift loads fun outcome ended => ends_anyway fun _ => .loaded ended

end

end Accounts

end AccountCache
