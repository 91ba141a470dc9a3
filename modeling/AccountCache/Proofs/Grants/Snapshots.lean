import AccountCache.Proofs.Coherence.Coherent
import AccountCache.Proofs.Grants.Conduct

namespace AccountCache

open Database (Tables)
open Simulation (Record Surroundings Unsteady World)

/-- Whether a snapshot answers as the grants of a list would, in whatever
order they stand and however often. -/
structure Permission.Matches (p : Permission) (grants : List Grant) : Prop where
  access : ∀ role resource action,
    p.hasAccess role resource action = true ↔ (⟨role, resource, action⟩ : Grant) ∈ grants
  none : p.isEmpty = true ↔ grants = []

theorem Permission.Matches.of_mem_iff {p : Permission} {grants grants' : List Grant} (right : p.Matches grants)
    (same : ∀ g, g ∈ grants' ↔ g ∈ grants) : p.Matches grants' where
  access role resource action := (right.access role resource action).trans (same _).symm
  none := by
    rw [right.none, List.eq_nil_iff_forall_not_mem, List.eq_nil_iff_forall_not_mem]
    simp only [same]

theorem Permission.matches_ofGrants (grants : List Grant) : (Permission.ofGrants grants).Matches grants :=
  ⟨fun _ _ _ => hasAccess_ofGrants, isEmpty_ofGrants⟩

/-- What is expected of a database that nobody else changes: a read tells
which grants there are, in any order and each any number of times, and
nothing but a grant that is made changes which there are. -/
structure Simulation.Surroundings.KeepsGrants (around : Surroundings) : Prop where
  found : ∀ {t grants t'}, around.database t .findGrants (.ok grants) t' → ∀ g, g ∈ grants ↔ g ∈ t.grants
  kept : ∀ {t r answer t'}, around.database t r answer t' →
    (∀ g, r = .createGrant g → ∃ e, answer = .error e) → ∀ g, g ∈ t'.grants ↔ g ∈ t.grants

theorem Database.Tables.grants_serve (t : Tables) (now : Timestamp) {r : Database.Request}
    (other : ∀ g, r ≠ .createGrant g) : (t.serve now r).2.grants = t.grants := by
  cases r with
  | createUser user hash =>
    rw [serve]
    split <;> rfl
  | updateUser user =>
    simp only [serve, updateUser]
    split <;> rfl
  | updatePassword id hash =>
    rw [serve]
    split <;> rfl
  | updateTokens id tokens =>
    rw [serve, updateTokens]
    split <;> rfl
  | createGrant g => exact absurd rfl (other g)
  | _ => rfl

/-- The tables in memory do as expected, also if they refuse
some requests. -/
theorem Database.Tables.keepsGrants_serve (refuses : Cache.Request → Prop) : Surroundings.KeepsGrants
    ⟨fun t r answer t' => (∃ e, answer = .error e) ∧ t' = t ∨ ∃ now, t.serve now r = (answer, t'), refuses⟩ where
  found allowed g := by
    rcases allowed with ⟨⟨_, ⟨⟩⟩, _⟩ | ⟨now, ⟨⟩⟩
    exact Iff.rfl
  kept {t r answer t'} allowed refused g := by
    rcases allowed with ⟨_, rfl⟩ | ⟨now, served⟩
    · exact Iff.rfl
    · have other : ∀ g, r ≠ .createGrant g := by
        rintro g rfl
        obtain ⟨e, rfl⟩ := refused g rfl
        cases served
      have after : (t.serve now r).2 = t' := by rw [served]
      rw [← after, Database.Tables.grants_serve t now other]

namespace Cache

/-- An entry is as it was after a request that broke off, unless the request
was for several. -/
theorem MemoryStore.live?_of_broken {s : MemoryStore} {now : Instant} {token key : String} {r : Request}
    (broken : (s.serve now token r).1 = none) (apart : key ∉ r.keys ∨ ∃ e, r = .set e) :
    (s.serve now token r).2.live? now key = s.live? now key := by
  rcases apart with away | ⟨e, rfl⟩
  · exact live?_serve token away
  · simp only [serve, set] at broken ⊢
    split at broken
    · cases broken
    · exact s.live?_maybeSweep

end Cache

namespace Simulation.World

variable {w w' : World} {around : Surroundings} {key : String}

theorem Reliable.cached?_of_broken (reliable : w.Reliable) {r : Cache.Request}
    (broken : (w.serveCache r).1 = none) (apart : key ∉ r.keys ∨ ∃ e, r = .set e) :
    (w.serveCache r).2.Reliable ∧ (w.serveCache r).2.cached? key = w.cached? key := by
  obtain ⟨⟨values, locks, memory⟩, faultless⟩ := reliable
  rw [serveCache, faultless r, memory] at broken ⊢
  cases locks with
  | none =>
    refine ⟨⟨⟨_, _, rfl⟩, faultless⟩, ?_⟩
    simp only [cached?, memory]
    exact Cache.MemoryStore.live?_of_broken broken apart
  | some locks =>
    cases about : r.isAboutLocks with
    | true =>
      simp only [Backend.serve, about, if_true]
      refine ⟨⟨⟨_, _, rfl⟩, faultless⟩, ?_⟩
      simp only [cached?, memory]
      rfl
    | false =>
      simp only [Backend.serve, about] at broken ⊢
      refine ⟨⟨⟨_, _, rfl⟩, faultless⟩, ?_⟩
      simp only [cached?, memory]
      exact Cache.MemoryStore.live?_of_broken broken apart

/-- What spares the snapshot leaves no other than the one that was cached
before. It may have dropped that one, or its deadline may have come. -/
theorem Reliable.cached?_of_sparesSnapshot (reliable : w.Reliable) {r : Cache.Request} (spares : r.SparesSnapshot)
    {answer : (Effect.cache r).Answer} (answers : w.Answers (.cache r) answer w') {e : Cache.Stored}
    (live : w'.cached? Key.permission = some e) : w.cached? Key.permission = some e := by
  rcases spares with looks | ⟨keys, rfl⟩ | away
  · have same := reliable.look looks answers .permission
    exact same.symm.trans live
  · rw [reliable.delete answers] at live
    split at live
    · cases live
    · exact live
  · exact (reliable.cached?_eq answers away).symm.trans live

end Simulation.World

namespace Accounts

variable {a : Accounts} {around : Surroundings} {w w' : World} {v v' : View}

/-- How things stand while one client keeps to the rule: what it knows of
the grants is what the database holds, and a cached snapshot is right where
the rule says so. -/
structure Seen (a : Accounts) (w : World) (v : View) : Prop where
  reliable : w.Reliable
  enabled : ∀ e, w.cached? Key.permission = some e → a.cache.policy.disabled = false
  right : v.fresh → ∀ e, w.cached? Key.permission = some e →
    ∃ p : Permission, e.value = p.bytes ∧ p.Matches w.tables.grants
  known : ∀ p, v.known = some p → p.Matches w.tables.grants

namespace Seen

theorem wait (seen : Seen a w v) (later : Instant) : Seen a (w.advanceTo later) v where
  reliable := seen.reliable.advanceTo later
  enabled e live := seen.enabled e (World.cached?_of_advanceTo live)
  right fresh e live := seen.right fresh e (World.cached?_of_advanceTo live)
  known := seen.known

theorem of_cached (seen : Seen a w v) (reliable : w'.Reliable)
    (cached : ∀ e, w'.cached? Key.permission = some e → w.cached? Key.permission = some e)
    (same : ∀ g, g ∈ w'.tables.grants ↔ g ∈ w.tables.grants) : Seen a w' v where
  reliable := reliable
  enabled e live := seen.enabled e (cached e live)
  right fresh e live := by
    obtain ⟨p, value, right⟩ := seen.right fresh e (cached e live)
    exact ⟨p, value, right.of_mem_iff same⟩
  known p isKnown := (seen.known p isKnown).of_mem_iff same

theorem aside (seen : Seen a w v) (keeps : around.KeepsGrants) (steady : ∀ r, ¬around.refuses r) {e : Effect}
    {answer : e.Answer} (meets : w.Meets around e answer w') (spares : e.SparesSnapshot) : Seen a w' v := by
  have reliable := seen.reliable.meets meets
  cases meets with
  | cache number answers =>
    have tables : w'.tables = w.tables := answers.tables_eq
    refine seen.of_cached reliable (fun e live => ?_) fun g => by rw [tables]
    exact (seen.reliable.numbered number).cached?_of_sparesSnapshot spares answers live
  | refused _ may => exact absurd may (steady _)
  | database allowed =>
    have same := keeps.kept allowed fun g asked => absurd asked (spares g)
    exact seen.of_cached reliable (fun _ => id) same
  | wallClock | quiet => exact seen

/-- A snapshot that is found is the one that was cached, and is read back as
it was written. -/
theorem hit (seen : Seen a w v) (keeps : around.KeepsGrants) (steady : ∀ r, ¬around.refuses r) {bytes : Bytes}
    (meets : w.Meets around (.cache (.get Key.permission)) (.ok (some bytes)) w') (fresh : v.fresh) :
    Seen a w' ⟨v.fresh, snapshot? bytes⟩ := by
  have after : Seen a w' v := seen.aside keeps steady meets (.inl trivial)
  refine { after with known := fun p isKnown => ?_ }
  cases meets with
  | cache number answers =>
    obtain ⟨_, found, _⟩ := (seen.reliable.numbered number).get answers
    obtain ⟨e, live, rfl⟩ := Option.map_eq_some_iff.1 (Except.ok.inj found).symm
    obtain ⟨q, value, right⟩ := seen.right fresh e live
    have row : q.bytes ≠ Cache.nilBytes := q.faithful.ne_nilBytes rfl rfl
    have read : Storable.decode? q.bytes = some q := q.faithful.decode?_of_encode? rfl
    rw [value, snapshot?, if_neg row, read] at isKnown
    obtain rfl := Option.some.inj isKnown
    have tables : w'.tables = w.tables := answers.tables_eq
    exact tables ▸ right
  | quiet quiet => cases quiet

theorem read (seen : Seen a w v) (keeps : around.KeepsGrants) {grants : List Grant}
    (meets : w.Meets around (.database .findGrants) (.ok grants) w') :
    Seen a w' ⟨v.fresh, some (.ofGrants grants)⟩ := by
  have reliable := seen.reliable.meets meets
  cases meets with
  | database allowed =>
    have same := keeps.kept allowed fun g asked => by cases asked
    have after : Seen a _ v := seen.of_cached reliable (fun _ => id) same
    refine { after with known := ?_ }
    rintro _ ⟨⟩
    have told := Permission.matches_ofGrants grants
    exact told.of_mem_iff fun g => (same g).trans (keeps.found allowed g).symm
  | quiet quiet => cases quiet

/-- Whoever caches a snapshot knows it to be right. -/
theorem write (seen : Seen a w v) (steady : ∀ r, ¬around.refuses r) {p : Permission} {seconds : Nat}
    {answer : Except Cache.Error Unit}
    (meets : w.Meets around (.cache (.set ⟨Key.permission, p.bytes, seconds⟩)) answer w')
    (isKnown : v.known = some p) (enabled : a.cache.policy.disabled = false) (positive : seconds ≠ 0) :
    Seen a w' v := by
  have reliable := seen.reliable.meets meets
  cases meets with
  | cache number answers =>
    obtain ⟨_, _, _, written, _⟩ := (seen.reliable.numbered number).set answers positive
    have tables : w'.tables = w.tables := answers.tables_eq
    have right := seen.known p isKnown
    refine ⟨reliable, fun _ _ => enabled, fun _ e live => ?_, tables ▸ seen.known⟩
    have same : w'.cached? Key.permission = some _ := written
    rw [same] at live
    obtain rfl := Option.some.inj live
    exact ⟨p, rfl, tables ▸ right⟩
  | refused _ may => exact absurd may (steady _)
  | quiet quiet => cases quiet

/-- After a grant is made a cached snapshot is wrong. Where the cache is
switched off there is none. -/
theorem change (seen : Seen a w v) {g : Grant} (meets : w.Meets around (.database (.createGrant g)) (.ok ()) w') :
    Seen a w' ⟨a.cache.policy.disabled = true, none⟩ := by
  have reliable := seen.reliable.meets meets
  cases meets with
  | database =>
    refine ⟨reliable, seen.enabled, fun disabled e live => ?_, fun _ told => by cases told⟩
    have enabled := seen.enabled e live
    rw [show a.cache.policy.disabled = true from disabled] at enabled
    cases enabled
  | quiet quiet => cases quiet

theorem refuse (seen : Seen a w v) (keeps : around.KeepsGrants) {g : Grant} {e : Database.Error}
    (meets : w.Meets around (.database (.createGrant g)) (.error e) w') : Seen a w' v := by
  have reliable := seen.reliable.meets meets
  cases meets with
  | database allowed =>
    have same := keeps.kept allowed fun _ _ => ⟨_, rfl⟩
    exact seen.of_cached reliable (fun _ => id) same
  | quiet quiet => cases quiet

theorem drop (seen : Seen a w v) (keeps : around.KeepsGrants) (steady : ∀ r, ¬around.refuses r) {keys : List String}
    (meets : w.Meets around (.cache (.delete keys)) (.ok ()) w') (member : Key.permission ∈ keys) :
    Seen a w' ⟨True, v.known⟩ := by
  have after : Seen a w' v := seen.aside keeps steady meets (.inr (.inl ⟨_, rfl⟩))
  refine { after with right := fun _ e live => ?_ }
  cases meets with
  | cache number answers =>
    rw [(seen.reliable.numbered number).delete answers, if_pos member] at live
    cases live
  | quiet quiet => cases quiet

theorem step (seen : Seen a w v) (keeps : around.KeepsGrants) (steady : ∀ r, ¬around.refuses r) {e : Effect}
    {answer : e.Answer} (meets : w.Meets around e answer w') (move : Granting a v e answer v') : Seen a w' v' := by
  cases move with
  | hit bytes fresh => exact seen.hit keeps steady meets fresh
  | read grants => exact seen.read keeps meets
  | write isKnown enabled positive => exact seen.write steady meets isKnown enabled positive
  | change => exact seen.change meets
  | refuse => exact seen.refuse keeps meets
  | drop member => exact seen.drop keeps steady meets member
  | fail serious =>
    cases meets with
    | cache number answers =>
      have counts := (seen.reliable.numbered number).isIncrement_of_error answers
      rw [serious] at counts
      cases counts
    | refused _ may => exact absurd may (steady _)
    | quiet quiet => cases quiet
  | aside spares => exact seen.aside keeps steady meets spares

theorem broken (seen : Seen a w v) {r : Cache.Request} (number : Nat)
    (may : ∀ answer, ∃ v', Granting a v (.cache r) answer v')
    (broke : ((w.numbered number).serveCache r).1 = none) : Seen a ((w.numbered number).serveCache r).2 v := by
  have reliable := seen.reliable.numbered number
  have apart : Key.permission ∉ r.keys ∨ ∃ e, r = .set e := by
    cases r with
    | set e => exact .inr ⟨e, rfl⟩
    | acquire | release | isHeld =>
      exact .inl fun named => Datum.permission.key_ne_lock _ (List.mem_singleton.1 named)
    | setMany entries =>
      obtain ⟨_, move⟩ := may (.ok ())
      cases move with
      | aside spares =>
        rcases spares with looks | ⟨keys, ⟨⟩⟩ | away
        · cases looks
        · exact .inl away
    | expire key ttl =>
      obtain ⟨_, move⟩ := may (.ok true)
      cases move with
      | aside spares =>
        rcases spares with looks | ⟨keys, ⟨⟩⟩ | away
        · cases looks
        · exact .inl away
    | get | delete | increment | ttl =>
      -- These never break off.
      obtain ⟨⟨values, locks, memory⟩, faultless⟩ := reliable
      rw [World.serveCache, faultless, memory] at broke
      cases locks <;> cases broke
  have tables : ((w.numbered number).serveCache r).2.tables = w.tables := by
    rw [World.serveCache, reliable.faultless]
    rfl
  obtain ⟨reliable', same⟩ := reliable.cached?_of_broken broke apart
  exact seen.of_cached reliable' (fun e live => same.symm.trans live) fun g => by rw [tables]

end Seen

/-- Operations on accounts that follow one another, over a cache in which no
snapshot is to begin with, and a database that nobody else changes and that
may refuse whatever it likes, however much time passes: whatever snapshot is
loaded after them grants exactly what the database grants then, and is empty
exactly if that is nothing. -/
theorem snapshot_matches_grants (a : Accounts) (around : Surroundings) (keeps : around.KeepsGrants)
    (steady : ∀ r, ¬around.refuses r) (world : World) (reliable : world.Reliable)
    (uncached : world.cached? Key.permission = none) (services : List (Σ α : Type, Service α))
    {log : List (Record Unit)} {w : World} {ps : Unit → Action (Except Error Permission)} {p : Permission}
    (run : Unsteady around world (fun _ => (performAll a services).bind fun _ => a.loadPermission.run) log w ps)
    (ended : ps () = .done (.ok p)) :
    (∀ role resource action,
      p.hasAccess role resource action = true ↔ (⟨role, resource, action⟩ : Grant) ∈ w.tables.grants) ∧
    (p.isEmpty = true ↔ w.tables.grants = []) := by
  have first : Seen a world ⟨True, none⟩ := {
    reliable
    enabled := fun e live => by rw [uncached] at live; cases live
    right := fun _ e live => by rw [uncached] at live; cases live
    known := fun _ => nofun }
  obtain ⟨views, seen, conform⟩ := run.invariant (fun _ w views => Seen a w (views ())) (fun _ => Granting a)
    (fun _ => ⟨True, none⟩) first
    (fun _ => (conforms_performAll services trivial).bind fun _ _ fresh => conforms_loadPermission fresh)
    (fun later seen => seen.wait later)
    (fun seen meets move => by
      rw [Function.update_self]
      exact seen.step keeps steady meets move)
    fun number seen may broke => seen.broken number may broke
  have told := conform ()
  rw [ended] at told
  have right := seen.known p (told.2 p rfl)
  exact ⟨right.access, right.none⟩

/-- A snapshot is loaded and cached, a grant is made, a day and an hour
pass, and the snapshot that is loaded then has the new grant beside the old
one, which the database keeps twice. -/
theorem snapshot_has_new_grant : ∃ log w, ∃ ps : Unit → Action (Except Error Permission), ∃ p : Permission,
    Unsteady ⟨fun t r answer t' => (∃ e, answer = .error e) ∧ t' = t ∨ ∃ now, t.serve now r = (answer, t'),
        fun _ => False⟩
      { tables := { grants := [⟨"admin", "user", "read"⟩, ⟨"admin", "user", "read"⟩] } }
      (fun _ => (performAll ⟨default, ⟨5, .ofSeconds 60⟩⟩
        [⟨_, .job .loadPermission⟩, ⟨_, .job (.createGrant ⟨"guest", "user", "list"⟩)⟩]).bind
          fun _ => (loadPermission ⟨default, ⟨5, .ofSeconds 60⟩⟩).run) log w ps ∧
    ps () = .done (.ok p) ∧ p.hasAccess "guest" "user" "list" = true ∧ p.isEmpty = false := by
  have fresh := @Unsteady.start Unit _ _ ⟨fun t r answer t' =>
      (∃ e, answer = .error e) ∧ t' = t ∨ ∃ now, t.serve now r = (answer, t'), fun _ => False⟩
    { tables := { grants := [⟨"admin", "user", "read"⟩, ⟨"admin", "user", "read"⟩] } }
    (fun _ => (performAll ⟨default, ⟨5, .ofSeconds 60⟩⟩
      [⟨_, .job .loadPermission⟩, ⟨_, .job (.createGrant ⟨"guest", "user", "list"⟩)⟩]).bind
        fun _ => (loadPermission ⟨default, ⟨5, .ofSeconds 60⟩⟩).run)
  have missed := (fresh.step () rfl (.of_serve 0 (.ok none) rfl)).step () rfl
    (.of_serve 0 (.ok (some ⟨Key.permission, _, _⟩)) rfl)
  have loaded := missed.step () rfl (.database (.inr ⟨.epoch, rfl⟩))
  have cached := (loaded.step () rfl (.of_serve 0 (.ok ()) rfl)).step () rfl (.of_serve 0 (.ok true) rfl)
  have granted := cached.step () rfl (.database (.inr ⟨.epoch, rfl⟩))
  have dropped := (granted.step () rfl (.of_serve 0 (.ok ()) rfl)).wait ⟨90000000000000⟩
  have again := (dropped.step () rfl (.of_serve 0 (.ok none) rfl)).step () rfl
    (.of_serve 0 (.ok (some ⟨Key.permission, _, _⟩)) rfl)
  have reloaded := again.step () rfl (.database (.inr ⟨.epoch, rfl⟩))
  have ended := (reloaded.step () rfl (.of_serve 0 (.ok ()) rfl)).step () rfl (.of_serve 0 (.ok true) rfl)
  obtain ⟨access, empty⟩ := snapshot_matches_grants ⟨default, ⟨5, .ofSeconds 60⟩⟩ _
    (Tables.keepsGrants_serve fun _ => False) (fun _ => id) _ ⟨⟨_, _, rfl⟩, fun _ => rfl⟩ rfl _ ended rfl
  refine ⟨_, _, _, _, ended, rfl, (access _ _ _).2 (by decide), Bool.eq_false_iff.2 fun none => ?_⟩
  cases empty.1 none

end Accounts

end AccountCache
