import AccountCache.Accounts.Permissions
import AccountCache.Accounts.Sessions
import AccountCache.Cache.MemoryStore
import AccountCache.Proofs.Coherence.Datum

namespace AccountCache

open Cache (Stored Cached)

/-- What an entry says: a value, or that there is none. -/
def Cache.Stored.says? {α : Type} [Storable α] (e : Stored) : Option (Option α) :=
  match Cached.ofBytes e.value with
  | .absent => some none
  | .value bytes => (Storable.decode? bytes).map some

/-- Whether an entry says nothing of the type that is kept under the key of
a datum. Entries that are spoilt are the ones that a read fails for. -/
def Datum.spoils : Datum → Stored → Bool
  | user _, e => (e.says? : Option (Option User)).isNone
  | email _, e => (e.says? : Option (Option Uuid)).isNone
  | password _, e => (e.says? : Option (Option String)).isNone
  | session _, e | token _, e => (e.says? : Option (Option Session)).isNone
  | permission, e => (e.says? : Option (Option Permission)).isNone

namespace Accounts

variable {α : Type}

/-- What reads draw on: what the database answers, and what is cached. At
one moment neither of them changes unless a read changes it. -/
structure Stock where
  loaded : (r : Database.Request) → Except Database.Error r.Result
  entry : Datum → Option Stored

namespace Stock

variable (s : Stock)

def load (r : Database.Request) : Except Error r.Result := (s.loaded r).mapError Error.database

/-- What the entry of a datum says, or else what is loaded if there
is no entry. -/
def lookUp [Storable α] (d : Datum) (loaded : Except Error (Option α)) : Except Error (Option α) :=
  match s.entry d with
  | none => loaded
  | some e =>
    match (e.says? : Option (Option α)) with
    | some found => .ok found
    | none => .error (.corrupt d.key)

def user (id : Uuid) : Except Error (Option User) := s.lookUp (.user id) (s.load (.findUser id))

def userId (address : String) : Except Error (Option Uuid) :=
  s.lookUp (.email address) ((s.load (.findUserByEmail address)).map fun found => found.map (·.id))

def complete : Option Session → Except Error (Option Session)
  | none => .ok none
  | some row => (s.user row.userId).map fun owner => owner.map fun user => { row with role := user.role }

/-- Whether there is an entry of a datum, and it makes no sense. -/
def isSpoilt (d : Datum) : Bool := (s.entry d).any d.spoils

def without (data : List Datum) : Stock := { s with entry := fun d => if d ∈ data then none else s.entry d }

def sound : Stock := { s with entry := fun d => if s.isSpoilt d then none else s.entry d }

@[simp] theorem load_without (data : List Datum) : (s.without data).load = s.load := rfl

@[simp] theorem isSpoilt_without (data : List Datum) (d : Datum) :
    (s.without data).isSpoilt d = (decide (d ∉ data) && s.isSpoilt d) := by
  by_cases gone : d ∈ data
  · simp [isSpoilt, without, gone]
  · simp [isSpoilt, without, gone]

/-- Entries that make no sense are passed over whether or not
they are there. -/
theorem sound_without_of_isSpoilt {d : Datum} (spoilt : s.isSpoilt d = true) : (s.without [d]).sound = s.sound := by
  have entries : (s.without [d]).sound.entry = s.sound.entry := by
    funext x
    show (if (s.without [d]).isSpoilt x then none else (s.without [d]).entry x) =
      if s.isSpoilt x then none else s.entry x
    rw [isSpoilt_without]
    by_cases same : x = d
    · subst same
      simp [without, spoilt]
    · simp [without, same]
  exact congrArg (Stock.mk s.loaded) entries

end Stock

/-- Whether a read has not failed for an entry that makes no sense. -/
def Clear (outcome : Except Error α) : Prop := ∀ key, outcome ≠ .error (.corrupt key)

namespace Clear

theorem ok (value : α) : Clear (.ok value) := fun _ => nofun

theorem map {β : Type} {outcome : Except Error α} (clear : Clear outcome) (f : α → β) : Clear (outcome.map f) := by
  cases outcome with
  | ok value => exact .ok _
  | error e =>
    intro key same
    exact clear key (congrArg Except.error (Except.error.inj same))

theorem bind {β : Type} {outcome : Except Error α} {f : α → Except Error β} (clear : Clear outcome)
    (rest : ∀ value, outcome = .ok value → Clear (f value)) : Clear (outcome >>= f) := by
  cases outcome with
  | ok value => exact rest value rfl
  | error e =>
    intro key same
    exact clear key (congrArg Except.error (Except.error.inj same))

theorem load (s : Stock) (r : Database.Request) : Clear (s.load r) := by
  intro key
  rw [Stock.load]
  cases s.loaded r with
  | ok | error => nofun

end Clear

section

variable [Storable α] {s : Stock} {d : Datum} {loaded : Except Error (Option α)}
  (kept : ∀ e, d.spoils e = (e.says? : Option (Option α)).isNone)

include kept

theorem lookUp_of_isSpoilt (spoilt : s.isSpoilt d = true) : s.lookUp d loaded = .error (.corrupt d.key) := by
  rw [Stock.isSpoilt, Option.any_eq_true] at spoilt
  obtain ⟨e, found, nonsense⟩ := spoilt
  rw [kept, Option.isNone_iff_eq_none] at nonsense
  simp only [Stock.lookUp, found, nonsense]

theorem lookUp_of_sound (sound : s.isSpoilt d = false) :
    (∃ e found, s.entry d = some e ∧ s.lookUp d loaded = .ok found) ∨
      s.entry d = none ∧ s.lookUp d loaded = loaded := by
  rw [Stock.lookUp]
  cases found : s.entry d with
  | none => exact .inr ⟨rfl, rfl⟩
  | some e =>
    simp only [Stock.isSpoilt, found, Option.any_some, kept, Option.isNone_eq_false_iff, Option.isSome_iff_exists]
      at sound
    obtain ⟨value, said⟩ := sound
    simp only [said]
    exact .inl ⟨e, value, rfl, rfl⟩

theorem clear_lookUp (sound : s.isSpoilt d = false) (loads : Clear loaded) : Clear (s.lookUp d loaded) := by
  have either : _ ∨ s.entry d = none ∧ s.lookUp d loaded = loaded := lookUp_of_sound kept sound
  obtain ⟨_, found, _, same⟩ | ⟨_, same⟩ := either
  · rw [same]
    exact .ok found
  · rwa [same]

end

theorem lookUp_sound [Storable α] {s : Stock} {d : Datum} (sound : s.isSpoilt d = false)
    (loaded : Except Error (Option α)) : s.sound.lookUp d loaded = s.lookUp d loaded := by
  simp only [Stock.lookUp, Stock.sound, sound]
  rfl

/-- The reads that look at the cache first. -/
inductive Recall : Type → Type
  | user (id : Uuid) : Recall (Option User)
  | userByEmail (address : String) : Recall (Option User)
  | password (id : Uuid) : Recall (Option String)
  | sessionByToken (type : TokenType) (text : String) : Recall (Option Session)
  | session (id : Int) : Recall (Option Session)
  | permission : Recall Permission

namespace Recall

def perform (a : Accounts) : Recall α → Operation α
  | user id => a.findUser id
  | userByEmail address => a.findUserByEmail address
  | password id => a.findPassword id
  | sessionByToken type text => a.findSessionByToken type text
  | session id => a.findSession id
  | permission => a.loadPermission

def told (s : Stock) : Recall α → Except Error α
  | user id => s.user id
  | userByEmail address => do
    match ← s.userId address with
    | some id => s.user id
    | none => return none
  | password id => s.lookUp (.password id) (s.load (.findPassword id))
  | sessionByToken type text => s.lookUp (.token text) (s.load (.findSessionByToken type text) >>= s.complete)
  | session id => s.lookUp (.session id) (s.load (.findSession id) >>= s.complete)
  | permission =>
    (s.lookUp .permission ((s.load .findGrants).map fun grants => some (.ofGrants grants))).map fun found =>
      found.getD .empty

/-- The data whose entries a read looks at, one after the other, as long as
those that make no sense are passed over. Which ones these are depends on
what the earlier ones say. -/
def trail (s : Stock) : Recall α → List Datum
  | user id => [.user id]
  | userByEmail address => .email address ::
    match s.sound.userId address with
    | .ok (some id) => [.user id]
    | _ => []
  | password id => [.password id]
  | sessionByToken type text => .token text :: owner (.token text) (s.load (.findSessionByToken type text))
  | session id => .session id :: owner (.session id) (s.load (.findSession id))
  | permission => [.permission]
where
  /-- The owner of a session is looked for if the session has
  to be loaded. -/
  owner (d : Datum) (loaded : Except Error (Option Session)) : List Datum :=
    match s.sound.entry d, loaded with
    | none, .ok (some row) => [.user row.userId]
    | _, _ => []

/-- The data whose entries are in the way of a read. -/
def spoilt (s : Stock) (r : Recall α) : List Datum := (r.trail s).filter s.isSpoilt

/-- What is ahead of a read: nothing, or entries of which it fails for the
first, while the others stay in its way. -/
inductive Outlook (s : Stock) (r : Recall α) : Prop
  | clear : r.spoilt s = [] → Clear (r.told s) → Outlook s r
  | blocked {d rest} : s.isSpoilt d = true → r.spoilt s = d :: rest → r.told s = .error (.corrupt d.key) →
    r.spoilt (s.without [d]) = rest → Outlook s r

variable {s : Stock} {d : Datum}

theorem trail_without_of_isSpoilt (r : Recall α) (spoilt : s.isSpoilt d = true) :
    r.trail (s.without [d]) = r.trail s := by
  have same := s.sound_without_of_isSpoilt spoilt
  cases r with
  | userByEmail address => simp only [trail, same]
  | sessionByToken | session => simp only [trail, trail.owner, same, s.load_without]
  | user | password | permission => rfl

/-- Only the last of the entries that a read looks at may be in its way. -/
theorem outlook_of_last {r : Recall α} {before : List Datum} (sound : ∀ x ∈ before, s.isSpoilt x = false)
    (trail : r.trail s = before ++ [d])
    (fails : s.isSpoilt d = true → r.told s = .error (.corrupt d.key))
    (clear : s.isSpoilt d = false → Clear (r.told s)) : Outlook s r := by
  have passed : before.filter s.isSpoilt = [] := List.filter_eq_nil_iff.2 fun x member => by simp [sound x member]
  cases spoilt : s.isSpoilt d with
  | true =>
    have one : r.spoilt s = [d] := by simp [Recall.spoilt, trail, passed, spoilt]
    refine .blocked spoilt one (fails spoilt) ?_
    have passed' : before.filter (s.without [d]).isSpoilt = [] :=
      List.filter_eq_nil_iff.2 fun x member => by simp [sound x member]
    simp [Recall.spoilt, r.trail_without_of_isSpoilt spoilt, trail, passed']
  | false =>
    refine .clear ?_ (clear spoilt)
    simp [Recall.spoilt, trail, passed, spoilt]

theorem outlook_of_first {r : Recall α} {rest : List Datum} (spoilt : s.isSpoilt d = true)
    (trail : r.trail s = d :: rest) (others : d ∉ rest) (fails : r.told s = .error (.corrupt d.key)) : Outlook s r := by
  have first : r.spoilt s = d :: rest.filter s.isSpoilt := by
    rw [Recall.spoilt, trail, List.filter_cons, if_pos spoilt]
  refine .blocked spoilt first fails ?_
  rw [Recall.spoilt, r.trail_without_of_isSpoilt spoilt, trail, List.filter_cons, s.isSpoilt_without]
  simp only [List.mem_singleton, not_true_eq_false, decide_false, Bool.false_and, Bool.false_eq_true, if_false]
  refine List.filter_congr fun x member => ?_
  have other : x ≠ d := fun same => others (same ▸ member)
  simp [other]

theorem outlook_of_sound {r : Recall α} (sound : s.isSpoilt d = false) (trail : r.trail s = [d])
    (clear : Clear (r.told s)) : Outlook s r :=
  .clear (by simp [Recall.spoilt, trail, sound]) clear

theorem outlook_user (s : Stock) (id : Uuid) : Outlook s (user id) :=
  outlook_of_last (List.forall_mem_nil _) rfl (lookUp_of_isSpoilt fun _ => rfl)
    fun sound => clear_lookUp (fun _ => rfl) sound (.load s _)

theorem outlook_password (s : Stock) (id : Uuid) : Outlook s (password id) :=
  outlook_of_last (List.forall_mem_nil _) rfl (lookUp_of_isSpoilt fun _ => rfl)
    fun sound => clear_lookUp (fun _ => rfl) sound (.load s _)

theorem outlook_permission (s : Stock) : Outlook s permission := by
  refine outlook_of_last (List.forall_mem_nil _) rfl (fun spoilt => ?_) fun sound => ?_
  · rw [told, lookUp_of_isSpoilt (fun _ => rfl) spoilt]
    rfl
  · exact (clear_lookUp (fun _ => rfl) sound ((Clear.load s .findGrants).map _)).map _

theorem outlook_userByEmail (s : Stock) (address : String) : Outlook s (userByEmail address) := by
  have kept : ∀ e, (Datum.email address).spoils e = (e.says? : Option (Option Uuid)).isNone := fun _ => rfl
  cases spoilt : s.isSpoilt (.email address) with
  | true =>
    refine outlook_of_first spoilt rfl ?_ ?_
    · split
      · simp
      · exact List.not_mem_nil
    · rw [told, Stock.userId, lookUp_of_isSpoilt kept spoilt]
      rfl
  | false =>
    have same : s.sound.userId address = s.userId address := lookUp_sound spoilt _
    have clear : Clear (s.userId address) :=
      clear_lookUp kept spoilt ((Clear.load s (.findUserByEmail address)).map fun found => found.map (·.id))
    cases leads : s.userId address with
    | error e =>
      refine outlook_of_sound spoilt (by rw [trail, same, leads]) (clear.bind fun found ended => ?_)
      rw [leads] at ended
      cases ended
    | ok found =>
      cases found with
      | none =>
        refine outlook_of_sound spoilt (by rw [trail, same, leads]) ?_
        rw [told, leads]
        exact .ok none
      | some id =>
        have goes : (userByEmail address).told s = s.user id := by
          rw [told, leads]
          rfl
        have passes : (userByEmail address).trail s = [.email address] ++ [.user id] := by
          rw [trail, same, leads]
          rfl
        refine outlook_of_last (List.forall_mem_singleton.2 spoilt) passes (fun nonsense => ?_) fun sound => ?_
        · exact goes.trans (lookUp_of_isSpoilt (fun _ => rfl) nonsense)
        · exact goes ▸ clear_lookUp (fun _ => rfl) sound (.load s _)

/-- A session is looked for under its key, and its owner if the session has
to be loaded. The owner's entry may thus be in the way where the session's
own is missing. -/
theorem outlook_of_session {r : Recall (Option Session)} {loaded : Except Error (Option Session)}
    (kept : ∀ e, d.spoils e = (e.says? : Option (Option Session)).isNone) (other : ∀ id, d ≠ .user id)
    (loads : Clear loaded) (looks : r.trail s = d :: trail.owner s d loaded)
    (ends : r.told s = s.lookUp d (loaded >>= s.complete)) : Outlook s r := by
  cases spoilt : s.isSpoilt d with
  | true =>
    refine outlook_of_first spoilt looks ?_ (ends.trans (lookUp_of_isSpoilt kept spoilt))
    unfold trail.owner
    split
    · exact fun member => other _ (List.mem_singleton.1 member)
    · exact List.not_mem_nil
  | false =>
    have entry : s.sound.entry d = s.entry d := by
      show (if s.isSpoilt d then none else s.entry d) = s.entry d
      rw [spoilt]
      rfl
    unfold trail.owner at looks
    rw [entry] at looks
    obtain ⟨e, found, there, same⟩ | ⟨missing, same⟩ := lookUp_of_sound kept spoilt
    · rw [there] at looks
      rw [same] at ends
      exact outlook_of_sound spoilt looks (ends ▸ .ok found)
    · rw [missing] at looks
      rw [same] at ends
      cases loaded with
      | error e => exact outlook_of_sound spoilt looks (ends ▸ loads.bind fun _ => nofun)
      | ok found =>
        cases found with
        | none => exact outlook_of_sound spoilt looks (ends ▸ .ok none)
        | some row =>
          have owner : r.told s = (s.user row.userId).map _ := ends
          refine outlook_of_last (List.forall_mem_singleton.2 spoilt) looks (fun nonsense => ?_) fun sound => ?_
          · rw [owner, Stock.user, lookUp_of_isSpoilt (fun _ => rfl) nonsense]
            rfl
          · exact owner ▸ (clear_lookUp (fun _ => rfl) sound (.load s _)).map _

/-- A read fails for the first of the entries that are in its way, and
not at all if there are none. The others are in its way still when that
one is gone. -/
theorem outlook (s : Stock) (r : Recall α) : Outlook s r := by
  cases r with
  | user id => exact outlook_user s id
  | userByEmail address => exact outlook_userByEmail s address
  | password id => exact outlook_password s id
  | sessionByToken type text =>
    exact outlook_of_session (d := .token text) (fun _ => rfl) (fun _ => nofun) (.load s _) rfl rfl
  | session id => exact outlook_of_session (d := .session id) (fun _ => rfl) (fun _ => nofun) (.load s _) rfl rfl
  | permission => exact outlook_permission s

end Recall

end Accounts

end AccountCache
