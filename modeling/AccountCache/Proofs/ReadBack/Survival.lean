import AccountCache.Proofs.ReadBack.Snapshots

namespace AccountCache

open Cache (Cached nilBytes)

namespace Storable

variable {α : Type} [Storable α] {a : α} {writable : Prop}

/-- What becomes of a value that is to be kept: exactly a writable one has
bytes; the cache hands these bytes out as a value, never as the mark for a
missing row; and they are read back as what was written. -/
structure Survives (a : α) (writable : Prop) : Prop where
  written : (∃ b, encode? a = some b) ↔ writable
  marked : ∀ b, encode? a = some b → b ≠ nilBytes
  value : ∀ b, encode? a = some b → Cached.ofBytes b = .value b
  back : ∀ b, encode? a = some b → decode? b = some a

theorem exists_encode? : (∃ b, encode? a = some b) ↔ ∃ j, toJson? a = some j := by
  simp only [encode?, ← Option.isSome_iff_exists, Option.isSome_map]

theorem Faithful.survives (faithful : Faithful a) (null : (ofJson? .null : Option α) = none)
    (written : (∃ j, toJson? a = some j) ↔ writable) : Survives a writable where
  written := exists_encode?.trans written
  marked _ encoded := faithful.ne_nilBytes null encoded
  value b encoded := by
    have differ := faithful.ne_nilBytes null encoded
    rw [Cached.ofBytes, if_neg differ]
  back _ encoded := faithful.decode?_of_encode? encoded

end Storable

open Storable (Survives)

/-- A timestamp has a form exactly if RFC 3339 can write it. -/
theorem Timestamp.exists_toJson? (t : Timestamp) :
    (∃ j, Storable.toJson? t = some j) ↔ t.isWritable = true := by
  have form : Storable.toJson? t = t.rfc3339?.map Json.ofText := rfl
  rw [form, ← Option.isSome_iff_exists, Option.isSome_map, rfc3339?]
  split
  · next writable => simp [writable]
  · next other => simp [other]

theorem User.exists_toJson? (u : User) :
    (∃ j, Storable.toJson? u = some j) ↔ u.createdAt.isWritable = true ∧ u.updatedAt.isWritable = true := by
  have form : Storable.toJson? u = u.toJson? := rfl
  rw [form, ← Timestamp.exists_toJson?, ← Timestamp.exists_toJson?]
  constructor
  · rintro ⟨j, written⟩
    obtain ⟨created, isCreated, written⟩ := Option.bind_eq_some_iff.1 written
    obtain ⟨updated, isUpdated, -⟩ := Option.bind_eq_some_iff.1 written
    exact ⟨⟨created, isCreated⟩, updated, isUpdated⟩
  · rintro ⟨⟨created, isCreated⟩, updated, isUpdated⟩
    simp [toJson?, isCreated, isUpdated]

theorem Session.exists_toJson? (s : Session) :
    (∃ j, Storable.toJson? s = some j) ↔
      (s.accessTokenExpiredAt.isWritable = true ∧ s.refreshTokenExpiredAt.isWritable = true) ∧
        s.createdAt.isWritable = true ∧ s.updatedAt.isWritable = true := by
  have form : Storable.toJson? s = s.toJson? := rfl
  rw [form]
  simp only [← Timestamp.exists_toJson?]
  constructor
  · rintro ⟨j, written⟩
    obtain ⟨access, isAccess, written⟩ := Option.bind_eq_some_iff.1 written
    obtain ⟨refresh, isRefresh, written⟩ := Option.bind_eq_some_iff.1 written
    obtain ⟨created, isCreated, written⟩ := Option.bind_eq_some_iff.1 written
    obtain ⟨updated, isUpdated, -⟩ := Option.bind_eq_some_iff.1 written
    exact ⟨⟨⟨access, isAccess⟩, refresh, isRefresh⟩, ⟨created, isCreated⟩, updated, isUpdated⟩
  · rintro ⟨⟨⟨access, isAccess⟩, refresh, isRefresh⟩, ⟨created, isCreated⟩, updated, isUpdated⟩
    simp [toJson?, isAccess, isRefresh, isCreated, isUpdated]

/-- Every user, session, snapshot, id and text comes back from the cache as
it was, timestamps with their offsets, and none looks like a missing row.
Users and sessions are written if all their timestamps can be; the others
always are. The id of a session has 64 bits. -/
theorem rows_survive_cache :
    (∀ u : User, Survives u (u.createdAt.isWritable = true ∧ u.updatedAt.isWritable = true)) ∧
    (∀ s : Session, minInt64 ≤ s.id → s.id ≤ maxInt64 →
      Survives s ((s.accessTokenExpiredAt.isWritable = true ∧ s.refreshTokenExpiredAt.isWritable = true) ∧
        s.createdAt.isWritable = true ∧ s.updatedAt.isWritable = true)) ∧
    (∀ p : Permission, Survives p True) ∧ (∀ u : Uuid, Survives u True) ∧ ∀ s : String, Survives s True := by
  refine ⟨fun u => ?users, fun s lower upper => ?sessions, fun p => ?snapshots, fun u => ?ids, fun s => ?texts⟩
  case users => exact u.faithful.survives rfl u.exists_toJson?
  case sessions => exact (Session.faithful lower upper).survives rfl s.exists_toJson?
  case snapshots => exact p.faithful.survives rfl (iff_true_intro ⟨_, rfl⟩)
  case ids => exact u.faithful.survives rfl (iff_true_intro ⟨_, rfl⟩)
  case texts => exact (String.faithful s).survives rfl (iff_true_intro ⟨_, rfl⟩)

/-- A session of the greatest id with a quoted token, an agent of control
and astral characters, and times written west of Greenwich, at the end of
the last day that can be written, and with a fraction of a second. -/
theorem greatest_session_survives :
    let s : Session := ⟨9223372036854775807, ⟨0, by decide⟩, "\"null\"", "null", ⟨1500000000, -34200⟩,
      ⟨253402300799999999999, 0⟩, "\x01\n\\😀", "admin", ⟨0, 0⟩, ⟨1, 60⟩⟩
    (minInt64 ≤ s.id ∧ s.id ≤ maxInt64) ∧
      ∃ b, Storable.encode? s = some b ∧ Cached.ofBytes b = .value b ∧ Storable.decode? b = some s := by
  intro s
  have lower : minInt64 ≤ s.id := by decide
  have upper : s.id ≤ maxInt64 := by decide
  have survives := rows_survive_cache.2.1 s lower upper
  obtain ⟨b, encoded⟩ := survives.written.2 (by decide)
  exact ⟨⟨lower, upper⟩, b, encoded, survives.value b encoded, survives.back b encoded⟩

end AccountCache
