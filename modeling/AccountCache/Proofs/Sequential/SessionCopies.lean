import AccountCache.Proofs.Sequential.Reach

namespace AccountCache

open Database (Tables)
open Simulation (World Circumstances Ensures Runs)

namespace Accounts

variable {a : Accounts} {c : Circumstances} {log : List Step} {w : World}

/-- What is cached under a token or an id is a session that the database
holds, and has the token or the id. So no token is known, and no session
found, that the database does not hold. -/
theorem session_copies_held (reach : Reach a c log w) (unbounded : ¬c.bounded) :
    (∀ text e, w.cached? (Key.token text) = some e → e.value ≠ Cache.nilBytes →
      ∃ s, Storable.decode? e.value = some s ∧ w.tables.Holds s ∧ ∃ type, s.token type = text) ∧
    (∀ id e, w.cached? (Key.session id) = some e → e.value ≠ Cache.nilBytes →
      ∃ s, Storable.decode? e.value = some s ∧ w.tables.Holds s ∧ s.id = id) ∧
    (∀ text w', Runs c (a.checkToken text) w true w' → ∃ s, w'.tables.Holds s ∧ ∃ type, s.token type = text) ∧
    (∀ type text s w', Runs c (a.findSessionByToken type text).run w (.ok (some s)) w' →
      w'.tables.Holds s ∧ ∃ type, s.token type = text) ∧
    (∀ id s w', Runs c (a.findSession id).run w (.ok (some s)) w' → w'.tables.Holds s ∧ s.id = id) := by
  have calm := reach.calm unbounded
  have decoded : ∀ {s bytes}, w.tables.Holds s → Storable.encode? s = some bytes → Storable.decode? bytes = some s :=
    fun holds encoded => (Calm.faithful_of_holds calm.keyed holds).decode?_of_encode? encoded
  refine ⟨fun text e live row => ?_, fun id e live row => ?_, fun text w' runs => ?_, fun type text s w' runs => ?_,
    fun id s w' runs => ?_⟩
  · obtain ⟨_, right⟩ := calm.entries (.token text) e live
    obtain ⟨s, holds, own, encoded⟩ := right.resolve_left row
    exact ⟨s, decoded holds encoded, holds, own⟩
  · obtain ⟨_, right⟩ := calm.entries (.session id) e live
    obtain ⟨s, holds, own, encoded⟩ := right.resolve_left row
    exact ⟨s, decoded holds encoded, holds, own⟩
  · obtain ⟨known, after⟩ := (calm.checkToken text).of_runs runs
    rw [after.tables]
    exact known rfl
  · obtain ⟨found, after⟩ := (calm.findSessionByToken unbounded type text).of_runs runs
    rw [after.tables]
    exact found s rfl
  · obtain ⟨found, after⟩ := (calm.findSession unbounded id).of_runs runs
    rw [after.tables]
    exact found s rfl

set_option maxRecDepth 4000 in
/-- A session is cached once created. -/
theorem session_copies_held_after_creation : ∃ log w text e,
    Reach ⟨default, ⟨5, .ofSeconds 60⟩⟩ ⟨False, fun _ => True, False⟩ log w ∧ w.cached? (Key.token text) = some e ∧
    e.value ≠ Cache.nilBytes ∧
    ∃ s, Storable.decode? e.value = some s ∧ w.tables.Holds s ∧ ∃ type, s.token type = text := by
  have fresh : Reach ⟨default, ⟨5, .ofSeconds 60⟩⟩ ⟨False, fun _ => True, False⟩ [] {} :=
    .start ⟨⟨_, _, rfl⟩, fun _ => rfl⟩ (fun _ => rfl) (fun _ => rfl) Tables.keyed_empty nofun
  have created := fresh.perform (.createSession ⟨1, .zero, "a", "r", .epoch, .epoch, "", "", .epoch, .epoch⟩) trivial
    (.query False.elim (@Tables.Permits.createSession _ _
      ⟨1, .zero, "a", "r", .epoch, .epoch, "", "", .epoch, .epoch⟩ 1 rfl (by decide) (by decide)) False.elim
      (.wallClock False.elim .epoch (.wallClock False.elim .epoch (.call False.elim rfl .done))))
  have copies := (session_copies_held created not_false).1 "a"
  refine ⟨_, _, "a", _, created, rfl, ?row, copies _ rfl ?row⟩
  exact (Session.faithful (s := ⟨1, .zero, "a", "r", .epoch, .epoch, "", "", .epoch, .epoch⟩) (by decide)
    (by decide)).ne_nilBytes rfl rfl

end Accounts

end AccountCache
