import AccountCache.Proofs.Sequential.Reach

namespace AccountCache

open Database (Tables)
open Simulation (World Circumstances Ensures Runs)

namespace Accounts

variable {a : Accounts} {c : Circumstances} {log : List Step} {w : World}

/-- Whatever was done before, what is found by a user's id is what the
database holds then, and an update yields the row that the database put. -/
theorem users_as_held (reach : Reach a c log w) (unbounded : ¬c.bounded) :
    (∀ id found w', Runs c (a.findUser id).run w (.ok found) w' →
      found = (w'.tables.users.find? id).map (·.1)) ∧
    (∀ id found w', Runs c (a.findPassword id).run w (.ok found) w' →
      found = (w'.tables.users.find? id).map (·.2)) ∧
    ∀ user found w', Runs c (a.updateUser user).run w (.ok found) w' →
      w.tables.Permits (.updateUser user) (.ok found) w'.tables ∧
        found = (w'.tables.users.find? user.id).map (·.1) := by
  have calm := reach.calm unbounded
  refine ⟨fun id found w' runs => ?_, fun id found w' runs => ?_, fun user found w' runs => ?_⟩
  · obtain ⟨yields, after⟩ := (calm.findUser id fun _ => nofun).of_runs runs
    rcases yields with ⟨_, ⟨⟩, rfl⟩ | ⟨_, _, ⟨⟩⟩
    rw [after.tables]
  · obtain ⟨yields, after⟩ := (calm.findPassword id fun _ => nofun).of_runs runs
    rcases yields with ⟨_, ⟨⟩, rfl⟩ | ⟨_, _, ⟨⟩⟩
    rw [after.tables]
  · obtain ⟨t', permits, after⟩ := (calm.updateUser unbounded user).of_runs runs
    obtain rfl := after.tables
    have put := permits found rfl
    refine ⟨put, ?_⟩
    generalize w'.tables = t' at put
    cases put with
    | @updateUser _ hash _ row _ own =>
      rw [← own, Database.Tables.putUser, SortedMap.find?_insert_self, Option.map_some]
    | updateNoUser none => rw [none, Option.map_none]

theorem runs_read_of_cached {α : Type} [Storable α] {key : String} {value : α} {load : Operation (Option α)}
    {bytes : Bytes} (roomy : c.bounded → w.clock.Roomy) (enabled : a.cache.policy.disabled = false)
    (answered : (w.serveCache (.get key)).1 = some (.ok (some bytes)))
    (null : (Storable.ofJson? .null : Option α) = none) (faithful : Storable.Faithful value)
    (encoded : Storable.encode? value = some bytes) :
    Runs c (a.read key load).run w (.ok (some value)) (w.serveCache (.get key)).2 := by
  have decoded : a.decode key (.ofBytes bytes) = (pure (some value) : Operation (Option α)) :=
    Calm.decode_ofBytes key null (by rintro _ ⟨⟩; exact faithful) encoded
  have looked : Runs c (a.cache.getOrLock key) w (.ok (.hit (.ofBytes bytes))) (w.serveCache (.get key)).2 := by
    rw [Cache.Manager.getOrLock, if_neg (Bool.eq_false_iff.1 enabled)]
    exact .call roomy answered .done
  have found : Runs c (Operation.cache (a.cache.getOrLock key)).run w (.ok (.hit (.ofBytes bytes)))
      (w.serveCache (.get key)).2 := looked.bind .done
  have cached : Runs c (a.lookup key : Operation (Lookup α)).run w (.ok (.cached (some value)))
      (w.serveCache (.get key)).2 := by
    refine found.andThen ?_
    show Runs c (a.decode key (.ofBytes bytes) >>= fun value => pure (Lookup.cached value) :
      Operation (Lookup α)).run _ _ _
    rw [decoded]
    exact .done
  exact cached.andThen .done

theorem runs_findUser_of_cached {user : User} {known : Bytes} (roomy : c.bounded → w.clock.Roomy)
    (enabled : a.cache.policy.disabled = false) (isKnown : Storable.encode? user = some known)
    (knows : (w.serveCache (.get (Key.user user.id))).1 = some (.ok (some known))) :
    Runs c (a.findUser user.id).run w (.ok (some user)) (w.serveCache (.get (Key.user user.id))).2 :=
  runs_read_of_cached roomy enabled knows rfl (User.faithful user) isKnown

set_option maxRecDepth 2000 in
/-- A user is found in the cache once created and found in the database. -/
theorem users_as_held_after_creation : ∃ log w, ∃ user : User,
    Reach ⟨default, ⟨5, .ofSeconds 60⟩⟩ ⟨False, fun _ => True, False⟩ log w ∧
    ∃ w', Runs ⟨False, fun _ => True, False⟩ (findUser ⟨default, ⟨5, .ofSeconds 60⟩⟩ user.id).run w
        (.ok (some user)) w' ∧
      some user = (w'.tables.users.find? user.id).map (·.1) := by
  have fresh : Reach ⟨default, ⟨5, .ofSeconds 60⟩⟩ ⟨False, fun _ => True, False⟩ [] {} :=
    .start ⟨⟨_, _, rfl⟩, fun _ => rfl⟩ (fun _ => rfl) (fun _ => rfl) Tables.keyed_empty nofun
  have created := fresh.perform (.createUser ⟨.zero, "n", "a@b", "r", "", .epoch, .epoch⟩ "h") trivial
    (.query False.elim (.createUser rfl rfl) False.elim (.call False.elim rfl .done))
  have loaded := created.perform (.findUser .zero) trivial
    (.call False.elim rfl (.call False.elim rfl (.load False.elim (.findUser .zero) False.elim
      (.call False.elim rfl (.call False.elim rfl .done)))))
  have found := (users_as_held loaded not_false).1 .zero (some ⟨.zero, "n", "a@b", "r", "", .epoch, .epoch⟩)
  refine ⟨_, _, ⟨.zero, "n", "a@b", "r", "", .epoch, .epoch⟩, loaded, ?_⟩
  refine Exists.imp (fun w' runs => ⟨runs, found w' runs⟩) ?_
  exact ⟨_, runs_findUser_of_cached False.elim rfl rfl rfl⟩

/-- With no two users of one email and no read failing, a search by email
finds who has the email. Only for an email that was taken from a user, and
that nobody has since, may it find a user with another email. -/
theorem emails_as_held (reach : Reach a c log w) (unbounded : ¬c.bounded) (unique : c.unique)
    (answered : ∀ r : Database.Request, r.isRead = true → ¬c.fails r) (address : String) :
    (∀ outcome w', Runs c (a.findUserByEmail address).run w outcome w' →
      ∃ found, outcome = .ok found ∧ w'.tables.Finds (Taken log) address found) ∧
    (a.cache.policy.Modest → w.clock.Roomy → ∃ outcome w', Runs c (a.findUserByEmail address).run w outcome w') := by
  have calm := reach.calm unbounded
  refine ⟨fun outcome w' runs => ?_, fun modest roomy => ?_⟩
  · obtain ⟨yields, after⟩ := (calm.findUserByEmail address).of_runs runs
    rcases yields with ⟨found, rfl, finds⟩ | ⟨fails | ⟨id, fails⟩, _⟩
    · rw [after.tables]
      exact ⟨found, rfl, finds unique⟩
    · exact absurd fails (answered _ rfl)
    · exact absurd fails (answered _ rfl)
  · -- Where the clock stays far from its end a search ends, and what it does there it may do here.
    have near : Calm a { c with bounded := True } (Datum.Right c.unique (Taken log) w.tables) [] w.tables w :=
      { calm with modest := fun _ => modest, roomy := fun _ => roomy }
    obtain ⟨outcome, w', runs⟩ := (near.findUserByEmail address).exists_runs trivial
    exact ⟨outcome, w', runs.mono (fun bounded => absurd bounded unbounded) (fun _ => id) id⟩

/-- With one user there is somebody to be found, and nobody else. -/
theorem emails_as_held_after_creation : ∃ log w found w',
    Reach ⟨default, ⟨5, .ofSeconds 60⟩⟩ ⟨False, fun _ => False, True⟩ log w ∧
    w.tables.userWithEmail? "a@b" = some ⟨.zero, "n", "a@b", "r", "", .epoch, .epoch⟩ ∧
    Runs ⟨False, fun _ => False, True⟩ (findUserByEmail ⟨default, ⟨5, .ofSeconds 60⟩⟩ "a@b").run w (.ok found) w' ∧
    w'.tables.Finds (Taken log) "a@b" found := by
  have fresh : Reach ⟨default, ⟨5, .ofSeconds 60⟩⟩ ⟨False, fun _ => False, True⟩ [] {} :=
    .start ⟨⟨_, _, rfl⟩, fun _ => rfl⟩ (fun _ => rfl) (fun _ => rfl) Tables.keyed_empty fun _ => Tables.unique_empty
  have created := fresh.perform (.createUser ⟨.zero, "n", "a@b", "r", "", .epoch, .epoch⟩ "h") trivial
    (.query False.elim (.createUser rfl rfl) (fun _ => Tables.unique_empty.putUser fun _ _ => nofun)
      (.call False.elim rfl .done))
  obtain ⟨all, exist⟩ := emails_as_held created not_false trivial (fun _ _ => not_false) "a@b"
  obtain ⟨outcome, w', runs⟩ := exist ⟨by decide, by decide, by decide⟩ (by decide)
  obtain ⟨found, rfl, finds⟩ := all outcome w' runs
  exact ⟨_, _, found, w', created, rfl, runs, finds⟩

theorem runs_findUserByEmail_of_cached {address : String} {user : User} {led known : Bytes}
    (roomy : c.bounded → w.clock.Roomy) (enabled : a.cache.policy.disabled = false)
    (isLed : Storable.encode? user.id = some led) (isKnown : Storable.encode? user = some known)
    (leads : (w.serveCache (.get (Key.email address))).1 = some (.ok (some led)))
    (knows : ((w.serveCache (.get (Key.email address))).2.serveCache (.get (Key.user user.id))).1 =
      some (.ok (some known))) :
    ∃ w', Runs c (a.findUserByEmail address).run w (.ok (some user)) w' := by
  have first : Runs c (a.findUserId address).run w (.ok (some user.id)) (w.serveCache (.get (Key.email address))).2 :=
    runs_read_of_cached roomy enabled leads rfl (Uuid.faithful user.id) isLed
  have same : (w.serveCache (.get (Key.email address))).2.clock = w.clock := (World.Answers.cache leads).clock_eq.1
  exact ⟨_, first.andThen (runs_findUser_of_cached (same ▸ roomy) enabled isKnown knows)⟩

set_option maxRecDepth 4000 in
/-- An update takes an email from a user, and the search goes on finding the
user by it. -/
theorem stale_email : ∃ log w, ∃ user : User,
    Reach ⟨default, ⟨5, .ofSeconds 60⟩⟩ ⟨False, fun _ => False, True⟩ log w ∧
    w.tables.userWithEmail? "a@b" = none ∧ user.email ≠ "a@b" ∧ ∃ w', Runs ⟨False, fun _ => False, True⟩
      (findUserByEmail ⟨default, ⟨5, .ofSeconds 60⟩⟩ "a@b").run w (.ok (some user)) w' := by
  have one : (({} : Tables).putUser ⟨.zero, "n", "a@b", "r", "", .epoch, .epoch⟩ "h").Unique :=
    Tables.unique_empty.putUser fun _ _ => nofun
  have still : ((({} : Tables).putUser ⟨.zero, "n", "a@b", "r", "", .epoch, .epoch⟩ "h").putUser
      ⟨.zero, "n", "c@d", "r", "", .epoch, .epoch⟩ "h").Unique := by
    refine one.putUser fun id row found _ => ?_
    rw [Tables.putUser, SortedMap.find?_insert] at found
    split at found
    · next same => exact same.symm
    · cases found
  have fresh : Reach ⟨default, ⟨5, .ofSeconds 60⟩⟩ ⟨False, fun _ => False, True⟩ [] {} :=
    .start ⟨⟨_, _, rfl⟩, fun _ => rfl⟩ (fun _ => rfl) (fun _ => rfl) Tables.keyed_empty fun _ => Tables.unique_empty
  have created := fresh.perform (.createUser ⟨.zero, "n", "a@b", "r", "", .epoch, .epoch⟩ "h") trivial
    (.query False.elim (.createUser rfl rfl) (fun _ => one) (.call False.elim rfl .done))
  -- The search caches the user's id under the email, and then the user.
  have led := created.perform (.findUserByEmail "a@b") trivial
    (.call False.elim rfl (.call False.elim rfl (.load False.elim
      (@Tables.Permits.findUserByEmail _ _ .zero (⟨.zero, "n", "a@b", "r", "", .epoch, .epoch⟩, "h") rfl rfl)
      (fun _ => one) (.call False.elim rfl (.call False.elim rfl
      (.call False.elim rfl (.call False.elim rfl (.load False.elim (.findUser .zero)
      (fun _ => one) (.call False.elim rfl (.call False.elim rfl .done))))))))))
  -- The update drops what is under the new email, and caches the user again.
  have moved := led.perform (.updateUser ⟨.zero, "n", "c@d", "r", "", .epoch, .epoch⟩) trivial
    (.query False.elim (@Tables.Permits.updateUser _ _ _ _ ⟨.zero, "n", "c@d", "r", "", .epoch, .epoch⟩ rfl rfl)
      (fun _ => still) (.call False.elim rfl
      (.call False.elim rfl (.call False.elim rfl (.load False.elim (.findUser .zero)
      (fun _ => still) (.call False.elim rfl (.call False.elim rfl .done)))))))
  refine ⟨_, _, ⟨.zero, "n", "c@d", "r", "", .epoch, .epoch⟩, moved, rfl, by decide, ?_⟩
  exact runs_findUserByEmail_of_cached False.elim rfl rfl rfl rfl rfl

end Accounts

end AccountCache
