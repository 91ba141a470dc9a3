import AccountCache.Cache.Item
import AccountCache.Database.Tables
import AccountCache.Proofs.Coherence.Datum

namespace AccountCache

open Database (Tables)

/-- What the keys of a user stand for. -/
def User.data (u : User) : List Datum := [.user u.id, .email u.email, .password u.id]

def Session.data (s : Session) : List Datum := [.token s.accessToken, .session s.id, .token s.refreshToken]

/-- The bytes of a copy: those of a row, or the mark for a missing one. -/
def recorded? {α : Type} [Storable α] : Option α → Option Bytes
  | some value => Storable.encode? value
  | none => some Cache.nilBytes

/-- Whether bytes are a copy of a session's row. The role is the owner's and
not part of the row. -/
def Session.IsCopy (row : Session) (bytes : Bytes) : Prop :=
  ∃ role, Storable.encode? { row with role } = some bytes

/-- Whether bytes are a copy of what the database holds, where `lacks` says
of which tokens there is to be no session. Emails lead to ids, and the other
keys to rows. -/
def Datum.Shows (lacks : String → Prop) (t : Tables) : Datum → Bytes → Prop
  | .user id, bytes => recorded? ((t.users.find? id).map (·.1)) = some bytes
  | .email address, bytes => recorded? ((t.userWithEmail? address).map (·.id)) = some bytes
  | .password id, bytes => recorded? ((t.users.find? id).map (·.2)) = some bytes
  | .session id, bytes => (∃ row ∈ t.sessions.values, row.id = id ∧ row.IsCopy bytes) ∨
      (∀ row ∈ t.sessions.values, row.id ≠ id) ∧ bytes = Cache.nilBytes
  | .token text, bytes => (∃ row ∈ t.sessions.values, (∃ type, row.token type = text) ∧ row.IsCopy bytes) ∨
      lacks text ∧ bytes = Cache.nilBytes
  | .permission, bytes => bytes = .ofText (Permission.ofGrants t.grants).toJson.text

/-- Whether bytes agree with the database. -/
def Datum.Agrees (t : Tables) : Datum → Bytes → Prop :=
  Datum.Shows (fun text => ∀ row ∈ t.sessions.values, ∀ type, row.token type ≠ text) t

/-- Whether bytes agree with the database as far as it was asked: a token
may be asked for under one type and be kept under the other. -/
def Datum.Reports (asked : String → TokenType → Prop) (t : Tables) : Datum → Bytes → Prop :=
  Datum.Shows (fun text => ∃ type, asked text type ∧ ∀ row ∈ t.sessions.values, row.token type ≠ text) t

/-- Whether two states of the database hold the same of a thing. Copies stay
copies from one such state to the other. -/
def Datum.Keeps (t t' : Tables) : Datum → Prop
  | .user id => (t'.users.find? id).map (·.1) = (t.users.find? id).map (·.1)
  | .email address => t'.userWithEmail? address = t.userWithEmail? address
  | .password id => (t'.users.find? id).map (·.2) = (t.users.find? id).map (·.2)
  | .session id => ∀ row, row.id = id → (row ∈ t'.sessions.values ↔ row ∈ t.sessions.values)
  | .token text => ∀ row, (∃ type, row.token type = text) →
      (row ∈ t'.sessions.values ↔ row ∈ t.sessions.values)
  | .permission => t'.grants = t.grants

namespace Datum

variable {asked : String → TokenType → Prop} {t t' : Tables} {d : Datum} {bytes : Bytes}

theorem Keeps.refl (t : Tables) (d : Datum) : d.Keeps t t := by
  cases d with
  | session | token => exact fun _ _ => Iff.rfl
  | _ => rfl

theorem Reports.keeps (reports : d.Reports asked t bytes) (keeps : d.Keeps t t') :
    d.Reports asked t' bytes := by
  cases d with
  | user id =>
    simp only [Reports, Shows, Keeps] at *
    rw [keeps, reports]
  | email address =>
    simp only [Reports, Shows, Keeps] at *
    rw [keeps, reports]
  | password id =>
    simp only [Reports, Shows, Keeps] at *
    rw [keeps, reports]
  | permission =>
    simp only [Reports, Shows, Keeps] at *
    rw [keeps, reports]
  | session id =>
    rcases reports with ⟨row, member, same, copy⟩ | ⟨missing, mark⟩
    · exact .inl ⟨row, (keeps row same).2 member, same, copy⟩
    · exact .inr ⟨fun row member same => missing row ((keeps row same).1 member) same, mark⟩
  | token text =>
    rcases reports with ⟨row, member, same, copy⟩ | ⟨⟨type, asks, missing⟩, mark⟩
    · exact .inl ⟨row, (keeps row same).2 member, same, copy⟩
    · exact .inr ⟨⟨type, asks, fun row member same =>
        missing row ((keeps row ⟨type, same⟩).1 member) same⟩, mark⟩

/-- What is reported agrees, unless the database keeps the token under a
type that was not asked. -/
theorem Reports.agrees (reports : d.Reports asked t bytes) :
    d.Agrees t bytes ∨ ∃ text type, d = .token text ∧ asked text type ∧
      (∀ row ∈ t.sessions.values, row.token type ≠ text) ∧
      ∃ row ∈ t.sessions.values, ∃ other, row.token other = text := by
  cases d with
  | token text =>
    rcases reports with copy | ⟨⟨type, asks, missing⟩, mark⟩
    · exact .inl (.inl copy)
    · by_cases kept : ∃ row ∈ t.sessions.values, ∃ other, row.token other = text
      · exact .inr ⟨text, type, rfl, asks, missing, kept⟩
      · exact .inl (.inr ⟨fun row member other same => kept ⟨row, member, other, same⟩, mark⟩)
  | _ => exact .inl reports

end Datum

end AccountCache
