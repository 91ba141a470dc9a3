import AccountCache.Proofs.Coherence.Quiescence

namespace AccountCache

open Database (Tables)
open Simulation (Event World)

namespace Accounts

variable {ι : Type}

/-- The answer of the database that tells the writer its row. -/
def Wrote (trace : List (Event (Option ι))) (user row : User) : Prop :=
  ⟨none, .database (.updateUser user), .ok (some row)⟩ ∈ trace

def row? (t : Tables) (id : Uuid) : Option User := (t.users.find? id).map (·.1)

/-- What the writer has heard from the database is what the database holds.
Nobody else writes, so this lasts from the write on. -/
structure Committed (user : User) (trace : List (Event (Option ι))) (w : World) (s : Stance) : Prop where
  reliable : w.Reliable
  wrote : ∀ row, Wrote trace user row → s ≠ .pending ∧ row.id = user.id ∧ row? w.tables user.id = some row
  loaded : ∀ found, ⟨none, .database (.findUser user.id), .ok found⟩ ∈ trace →
    s ≠ .pending ∧ row? w.tables user.id = found

variable {a : Accounts} {asked : String → TokenType → Prop} {user : User} {w w' : World}
  {trace : List (Event (Option ι))} {places : Option ι → Stance} {i : Option ι}

/-- Only a write that has not reached the database changes it. -/
theorem Stance.Moves.tables_eq {write : Write} {s s' : Stance} {e : Effect} {answer : e.Answer}
    (move : Stance.Moves a asked write s e answer s') (answers : w.Answers e answer w') (under : s ≠ .pending) :
    w'.tables = w.tables := by
  cases move with
  | load read | miss read =>
    obtain ⟨_, _, ⟨_, same⟩ | ⟨now, served⟩⟩ := answers.of_database
    · exact same
    · rw [← w.tables.serve_of_isRead now read, served]
  | write | refuse => exact absurd rfl under
  | look | fill | fillMany | drop | clean | refresh | fail => exact answers.tables_eq
  | quiet quiet => rw [answers.eq_of_isQuiet quiet]

theorem Stance.Moves.ne_pending {write : Write} {s s' : Stance} {e : Effect} {answer : e.Answer}
    (move : Stance.Moves a asked write s e answer s') (answers : w.Answers e answer w') (reliable : w.Reliable)
    (under : s ≠ .pending) : s' ≠ .pending := by
  cases move with
  | fail plain =>
    rw [reliable.isIncrement_of_error answers] at plain
    cases plain
  | quiet => exact under
  | write | refuse => exact absurd rfl under
  | _ => exact nofun

/-- The database tells the writer the row that it holds from then on. -/
theorem row?_of_updateUser {t t' : Tables} {now : Timestamp} {row : User}
    (served : t.serve now (.updateUser user) = (.ok (some row), t')) :
    row.id = user.id ∧ row? t' user.id = some row := by
  simp only [Tables.serve, Tables.updateUser] at served
  split at served
  · cases served
  · cases served
    exact ⟨rfl, by rw [row?, Tables.putUser, SortedMap.find?_insert_self]; rfl⟩

theorem eq_of_updateUser_none {t t' : Tables} {now : Timestamp}
    (served : t.serve now (.updateUser user) = (.ok none, t')) : t' = t := by
  simp only [Tables.serve, Tables.updateUser] at served
  split at served
  · cases served
    rfl
  · cases served

theorem user_mem_affected {row : User} (same : row.id = user.id) :
    .user user.id ∈ (Write.updateUser user).affected (some row) := by
  rw [← same, Write.affected]
  split <;> simp [User.data]

theorem stance_ne_pending (write : Write) (answer : write.request.Result) : write.stance a answer ≠ .pending := by
  rw [Write.stance]
  split
  · rintro ⟨⟩
  · rintro ⟨⟩

namespace Committed

variable {e : Effect} {answer : e.Answer} {s s' : Stance}

theorem beside (h : Committed user trace w s) (reliable : w'.Reliable) (tables : w'.tables = w.tables) {j : ι} :
    Committed user (⟨some j, e, answer⟩ :: trace) w' s where
  reliable := reliable
  wrote row wrote := tables ▸ h.wrote row ((List.mem_cons.1 wrote).resolve_left nofun)
  loaded found loads := tables ▸ h.loaded found ((List.mem_cons.1 loads).resolve_left nofun)

/-- The database answers the writer. -/
theorem commit (h : Committed user trace w .pending) {answer : Option User}
    (answers : w.Answers (.database (.updateUser user)) (.ok answer) w') (settled : s ≠ .pending) :
    Committed user (⟨none, .database (.updateUser user), .ok answer⟩ :: trace) w' s where
  reliable := h.reliable.answered answers
  wrote row wrote := by
    rcases List.mem_cons.1 wrote with own | earlier
    · cases own
      obtain ⟨_, _, ⟨⟨_, failed⟩, _⟩ | ⟨now, served⟩⟩ := answers.of_database
      · cases failed
      · exact ⟨settled, row?_of_updateUser served⟩
    · exact absurd rfl (h.wrote row earlier).1
  loaded found loads := absurd rfl (h.loaded found ((List.mem_cons.1 loads).resolve_left nofun)).1

theorem fail (h : Committed user trace w .pending) (reliable : w'.Reliable) {x : Event (Option ι)}
    (unwritten : ∀ row, x ≠ ⟨none, .database (.updateUser user), .ok (some row)⟩)
    (unread : ∀ found, x ≠ ⟨none, .database (.findUser user.id), .ok found⟩) : Committed user (x :: trace) w' s where
  reliable := reliable
  wrote row wrote := absurd rfl (h.wrote row ((List.mem_cons.1 wrote).resolve_left (unwritten row).symm)).1
  loaded found loads := absurd rfl (h.loaded found ((List.mem_cons.1 loads).resolve_left (unread found).symm)).1

/-- Once its write has reached the database, the writer hears what the
database holds. -/
theorem hear (h : Committed user trace w s) (answers : w.Answers e answer w')
    (move : Stance.Moves a asked (.updateUser user) s e answer s') (under : s ≠ .pending) :
    Committed user (⟨none, e, answer⟩ :: trace) w' s' := by
  have tables := move.tables_eq answers under
  have under' := move.ne_pending answers h.reliable under
  refine ⟨h.reliable.answered answers, fun row wrote => ⟨under', ?_⟩, fun found loads => ⟨under', ?_⟩⟩
  · rw [tables]
    rcases List.mem_cons.1 wrote with own | earlier
    · cases own
      cases move with
      | load read => cases read
      | write => exact absurd rfl under
      | quiet quiet => exact quiet.elim
    · exact (h.wrote row earlier).2
  · rcases List.mem_cons.1 loads with own | earlier
    · cases own
      obtain ⟨_, _, ⟨⟨_, failed⟩, _⟩ | ⟨now, served⟩⟩ := answers.of_database
      · cases failed
      · rw [tables]
        exact Except.ok.inj (congrArg Prod.fst served)
    · rw [tables]
      exact (h.loaded found earlier).2

theorem step [DecidableEq ι] (h : Committed user trace w (places none)) (others : ∀ j, places (some j) ≠ .pending)
    (answers : w.Answers e answer w') (move : Stance.Moves a asked (.updateUser user) (places i) e answer s) :
    Committed user (⟨i, e, answer⟩ :: trace) w' (Function.update places i s none) ∧
      ∀ j, Function.update places i s (some j) ≠ .pending := by
  cases i with
  | some j =>
    have under := others j
    rw [Function.update_of_ne (by nofun)]
    refine ⟨h.beside (h.reliable.answered answers) (move.tables_eq answers under), fun k => ?_⟩
    by_cases own : some k = some j
    · rw [own, Function.update_self]
      exact move.ne_pending answers h.reliable under
    · rw [Function.update_of_ne own]
      exact others k
  | none =>
    rw [Function.update_self]
    refine ⟨?_, fun j => by rw [Function.update_of_ne (by nofun : some j ≠ none)]; exact others j⟩
    by_cases pending : places none = .pending
    · rw [pending] at h move
      cases move with
      | write => exact h.commit answers (stance_ne_pending _ _)
      | refuse => exact h.fail (h.reliable.answered answers) nofun nofun
      | fail plain =>
        rw [h.reliable.isIncrement_of_error answers] at plain
        cases plain
      | quiet quiet =>
        refine h.fail (h.reliable.answered answers) (fun row same => ?_) fun found same => ?_
        · cases same
          exact quiet
        · cases same
          exact quiet
    · exact h.hear answers move pending

end Committed

/-- Whether bytes are a copy of a user's row, or of the one before that a
reader brought back. -/
def Renewed (id : Uuid) (t₀ t : Tables) (trace : List (Event (Option ι))) (bytes : Bytes) : Prop :=
  recorded? (row? t id) = some bytes ∨ Raced trace (Key.user id) ∧ recorded? (row? t₀ id) = some bytes

theorem Renewed.mono {id : Uuid} {t₀ t : Tables} {trace trace' : List (Event (Option ι))} {bytes : Bytes}
    (renewed : Renewed id t₀ t trace bytes) (longer : (deeds trace).Sublist (deeds trace')) :
    Renewed id t₀ t trace' bytes :=
  renewed.imp_right fun ⟨raced, older⟩ => ⟨raced.mono longer, older⟩

/-- How far the writer has come, and its deeds so far, the latest first. -/
inductive Written (id : Uuid) (t₀ t : Tables) : Stance → List (Option ι × Deed) → Prop
  | pending : t = t₀ → Written id t₀ t .pending []
  | dirty {affected news} : .user id ∈ affected → Written id t₀ t (.dirty affected news) [(none, .write)]
  | renewed {known deed} : deed.Clears → Written id t₀ t (.reading known) [(none, deed), (none, .write)]
  | unchanged {known} : Written id t₀ t (.reading known) []

/-- What is true of the writer, the others and the entry of the user: once
the writer has cleared it, whatever is cached there is renewed, and so is
what the writer reads there. Before that nothing is said of the entry. -/
structure Renewing (user : User) (t₀ : Tables) (trace : List (Event (Option ι))) (w : World)
    (places : Option ι → Stance) (passed : List (Option ι × Deed)) : Prop where
  reliable : w.Reliable
  written : Written user.id t₀ w.tables (places none) passed
  readers : ∀ j, (places (some j)).IsReading
  heard : ∀ i, ∀ l ∈ (places i).known, Heard t₀ w.tables passed (deeds trace) i l
  shown : (places none).IsReading → passed ≠ [] → ∀ x, w.cached? (Key.user user.id) = some x →
    Renewed user.id t₀ w.tables trace x.value
  gets : ∀ bytes, ⟨none, .cache (.get (Key.user user.id)), .ok (some bytes)⟩ ∈ trace →
    (places none).IsReading ∧ (passed ≠ [] → Renewed user.id t₀ w.tables trace bytes)
  wrote : ∀ row, Wrote trace user row → passed ≠ []

namespace Renewing

variable {t₀ : Tables} {passed : List (Option ι × Deed)} {known known' : List Load} {e : Effect} {answer : e.Answer}

theorem reports {l : Load} {t : Tables} (holds : l.TrueOf t) {id : Uuid} {bytes : Bytes}
    (tells : l.Tells (.user id) bytes) : recorded? (row? t id) = some bytes :=
  have anyway : l.Asked fun _ _ => True := fun _ _ _ => trivial
  holds.reports anyway tells

/-- What a client that knows an answer caches because of it. -/
theorem told (h : Renewing user t₀ trace w places passed) (at_ : places i = .reading known) {l : Load}
    (knows : l ∈ known) {bytes : Bytes} (tells : l.Tells (.user user.id) bytes) {event : Event (Option ι)}
    {keys : List String} (fills : deed? event = some (i, .fill keys)) (member : Key.user user.id ∈ keys)
    (settled : (places none).IsReading) (some : passed ≠ []) :
    Renewed user.id t₀ w.tables (event :: trace) bytes := by
  have heard := h.heard i l (by rwa [at_])
  cases i with
  | none => exact .inl (reports heard tells)
  | some j =>
    rcases heard with ⟨holds, _⟩ | ⟨held, order⟩
    · exact .inl (reports holds tells)
    · obtain ⟨news, settled⟩ := settled
      have written := h.written
      rw [settled] at written
      cases written with
      | renewed clears =>
        refine .inr ⟨⟨j, keys, _, member, clears, ?_⟩, reports held tells⟩
        rw [deeds_cons fills]
        exact order.cons_cons _
      | unchanged => exact absurd rfl some

variable [DecidableEq ι]

theorem isReading_update (at_ : places i = .reading known) :
    (Function.update places i (.reading known') none).IsReading ↔ (places none).IsReading := by
  by_cases own : none = i
  · subst own
    rw [Function.update_self, at_]
    exact ⟨fun _ => ⟨known, rfl⟩, fun _ => ⟨known', rfl⟩⟩
  · rw [Function.update_of_ne own]

/-- A client that has nothing to write learns from the database, looks at
the cache, or caches what it knows. -/
theorem read (h : Renewing user t₀ trace w places passed) (at_ : places i = .reading known)
    (answers : w.Answers e answer w') (tables : w'.tables = w.tables)
    (learns : ∀ l ∈ known', l ∈ known ∨
      l.TrueOf w.tables ∧ (i, Deed.load) ∈ deeds ((⟨i, e, answer⟩ : Event (Option ι)) :: trace))
    (origin : ∀ x, w'.cached? (Key.user user.id) = some x → w.cached? (Key.user user.id) = some x ∨
      ∃ keys, deed? ⟨i, e, answer⟩ = some (i, .fill keys) ∧ Key.user user.id ∈ keys ∧
        ∃ l ∈ known, l.Tells (.user user.id) x.value)
    (unwritten : e ≠ .database (.updateUser user)) :
    Renewing user t₀ (⟨i, e, answer⟩ :: trace) w' (Function.update places i (.reading known')) passed where
  reliable := h.reliable.answered answers
  written := by
    have written := h.written
    rw [tables]
    by_cases own : none = i
    · subst own
      rw [at_] at written
      rw [Function.update_self]
      cases written with
      | renewed clears => exact .renewed clears
      | unchanged => exact .unchanged
    · rwa [Function.update_of_ne own]
  readers j := by
    by_cases own : some j = i
    · subst own
      rw [Function.update_self]
      exact ⟨known', rfl⟩
    · rw [Function.update_of_ne own]
      exact h.readers j
  heard j l knows := by
    rw [tables]
    by_cases own : j = i
    · subst own
      rw [Function.update_self] at knows
      rcases learns l knows with old | ⟨holds, loads⟩
      · exact (h.heard j l (by rwa [at_])).mono (deeds_sublist _ trace)
      · cases j with
        | none => exact holds
        | some j => exact .inl ⟨holds, loads⟩
    · rw [Function.update_of_ne own] at knows
      exact (h.heard j l knows).mono (deeds_sublist _ trace)
  shown settled some x live := by
    rw [isReading_update at_] at settled
    rw [tables]
    rcases origin x live with old | ⟨keys, fills, member, l, knows, tells⟩
    · exact (h.shown settled some x old).mono (deeds_sublist _ trace)
    · exact h.told at_ knows tells fills member settled some
  gets bytes got := by
    rw [isReading_update at_, tables]
    rcases List.mem_cons.1 got with own | earlier
    · cases own
      have settled : (places none).IsReading := ⟨known, at_⟩
      obtain ⟨_, told, _⟩ := h.reliable.get answers
      obtain ⟨x, live, rfl⟩ := Option.map_eq_some_iff.1 (Except.ok.inj told).symm
      exact ⟨settled, fun some => (h.shown settled some x live).mono (deeds_sublist _ trace)⟩
    · exact (h.gets bytes earlier).imp_right fun renewed some => (renewed some).mono (deeds_sublist _ trace)
  wrote row wrote := by
    refine h.wrote row ((List.mem_cons.1 wrote).resolve_left fun same => ?_)
    cases same
    exact unwritten rfl

omit [DecidableEq ι] in
theorem wait (h : Renewing user t₀ trace w places passed) (later : Instant) :
    Renewing user t₀ trace (w.advanceTo later) places passed :=
  { h with
    reliable := h.reliable.advanceTo later
    shown settled some x live := h.shown settled some x (World.cached?_of_advanceTo live) }

omit [DecidableEq ι] in
theorem quiet (h : Renewing user t₀ trace w places passed) (quiet : e.IsQuiet) :
    Renewing user t₀ (⟨i, e, answer⟩ :: trace) w places passed where
  reliable := h.reliable
  written := h.written
  readers := h.readers
  heard j l knows := (h.heard j l knows).mono (deeds_sublist _ trace)
  shown settled some x live := (h.shown settled some x live).mono (deeds_sublist _ trace)
  gets bytes got := by
    refine (h.gets bytes ((List.mem_cons.1 got).resolve_left fun same => ?_)).imp_right fun renewed some =>
      (renewed some).mono (deeds_sublist _ trace)
    cases same
    exact quiet
  wrote row wrote := by
    refine h.wrote row ((List.mem_cons.1 wrote).resolve_left fun same => ?_)
    cases same
    exact quiet

/-- The writer goes from where it reads nothing to somewhere else, and the
others stay where they are. -/
theorem turn (h : Renewing user t₀ trace w places passed) {s : Stance} {passed' : List (Option ι × Deed)}
    {event : Event (Option ι)} (reliable : w'.Reliable) (busy : ¬(places none).IsReading)
    (written : Written user.id t₀ w'.tables s passed') (news : ∀ l ∈ s.known, l.TrueOf w'.tables)
    (heard : ∀ j l, Heard t₀ w.tables passed (deeds trace) (some j) l →
      Heard t₀ w'.tables passed' (deeds (event :: trace)) (some j) l)
    (shown : s.IsReading → passed' ≠ [] → ∀ x, w'.cached? (Key.user user.id) = some x →
      Renewed user.id t₀ w'.tables (event :: trace) x.value)
    (unread : ∀ bytes, event ≠ ⟨none, .cache (.get (Key.user user.id)), .ok (some bytes)⟩)
    (wrote : ∀ row, Wrote (event :: trace) user row → passed' ≠ []) :
    Renewing user t₀ (event :: trace) w' (Function.update places none s) passed' where
  reliable := reliable
  written := by rwa [Function.update_self]
  readers j := by
    rw [Function.update_of_ne (by nofun)]
    exact h.readers j
  heard i l knows := by
    cases i with
    | none =>
      rw [Function.update_self] at knows
      exact news l knows
    | some j =>
      rw [Function.update_of_ne (by nofun)] at knows
      exact heard j l (h.heard (some j) l knows)
  shown settled := by
    rw [Function.update_self] at settled
    exact shown settled
  gets bytes got :=
    absurd (h.gets bytes ((List.mem_cons.1 got).resolve_left (unread bytes).symm)).1 busy
  wrote := wrote

/-- The writer drops or refills the entry. -/
theorem settle (h : Renewing user t₀ trace w places passed) {affects : List Datum} {news : List Load}
    (at_ : places none = .dirty affects news) (deed : Deed) {event : Event (Option ι)} (reliable : w'.Reliable)
    (tables : w'.tables = w.tables) (clears : deed.Clears) (does : deed? event = some (none, deed))
    (unread : ∀ bytes, event ≠ ⟨none, .cache (.get (Key.user user.id)), .ok (some bytes)⟩)
    (origin : .user user.id ∈ affects → ∀ x, w'.cached? (Key.user user.id) = some x →
      ∃ l ∈ news, l.Tells (.user user.id) x.value) :
    Renewing user t₀ (event :: trace) w' (Function.update places none (.reading []))
      [(none, deed), (none, .write)] := by
  have written := h.written
  have news' := h.heard none
  rw [at_] at written news'
  cases written with
  | dirty own =>
    refine h.turn reliable (by rw [at_]; rintro ⟨_, ⟨⟩⟩) (.renewed clears) (fun _ => nofun) (fun j l heard => ?_)
      (fun _ _ x live => ?_) unread fun _ _ => nofun
    · rw [tables, deeds_cons does]
      rcases heard with ⟨holds, member⟩ | ⟨held, order⟩
      · exact .inl ⟨holds, List.mem_cons_of_mem _ member⟩
      · exact .inr ⟨held, order.cons_cons _⟩
    · obtain ⟨l, knows, tells⟩ := origin own x live
      rw [tables]
      exact .inl (reports (news' l knows) tells)

/-- The database refuses the write, or has no such user, and the writer goes
on without a row. -/
theorem leave (h : Renewing user t₀ trace w places passed) (at_ : places none = .pending)
    {event : Event (Option ι)} (reliable : w'.Reliable) (tables : w'.tables = w.tables)
    (unread : ∀ bytes, event ≠ ⟨none, .cache (.get (Key.user user.id)), .ok (some bytes)⟩)
    (unwritten : ∀ row, event ≠ ⟨none, .database (.updateUser user), .ok (some row)⟩) :
    Renewing user t₀ (event :: trace) w' (Function.update places none (.reading [])) [] := by
  have written := h.written
  rw [at_] at written
  cases written with
  | pending =>
    refine h.turn reliable (by rw [at_]; rintro ⟨_, ⟨⟩⟩) .unchanged (fun _ => nofun) (fun j l heard => ?_)
      (fun _ some => absurd rfl some) unread fun row wrote => ?_
    · exact tables ▸ heard.mono (deeds_sublist event trace)
    · exact h.wrote row ((List.mem_cons.1 wrote).resolve_left (unwritten row).symm)

theorem commit (h : Renewing user t₀ trace w places passed) (at_ : places none = .pending) {row : User}
    {affected : List Datum} (own : .user user.id ∈ affected)
    (answers : w.Answers (.database (.updateUser user)) (.ok (some row)) w') :
    Renewing user t₀ (⟨none, .database (.updateUser user), .ok (some row)⟩ :: trace) w'
      (Function.update places none (.dirty affected [])) [(none, .write)] := by
  have written := h.written
  rw [at_] at written
  generalize fresh : w.tables = t at written
  cases written with
  | pending same =>
    have does : deed? ⟨(none : Option ι), .database (.updateUser user), .ok (some row)⟩ = some (none, .write) :=
      deed?_database none (.updateUser user) (some row)
    refine h.turn (h.reliable.answered answers) (by rw [at_]; rintro ⟨_, ⟨⟩⟩) (.dirty own) (fun _ => nofun)
      (fun j l heard => ?_) ?_ (fun _ => nofun) fun _ _ => nofun
    · rw [deeds_cons does]
      rcases heard with ⟨holds, loads⟩ | ⟨held, loads⟩
      · exact .inr ⟨same ▸ fresh ▸ holds, (List.singleton_sublist.2 loads).cons_cons _⟩
      · exact .inr ⟨held, loads.cons_cons _⟩
    · rintro ⟨_, ⟨⟩⟩

/-- Whatever a client does by the rules, the entry stays renewed once the
writer has cleared it. The one way in which an older row comes back is a
reader who raced the writer, which `Renewed` allows for. -/
theorem step (h : Renewing user t₀ trace w places passed) (enabled : a.cache.policy.disabled = false) {s : Stance}
    (answers : w.Answers e answer w') (move : Stance.Moves a asked (.updateUser user) (places i) e answer s) :
    ∃ passed, Renewing user t₀ (⟨i, e, answer⟩ :: trace) w' (Function.update places i s) passed := by
  generalize at_ : places i = s₀ at move
  have entries {r : Database.Request} {answer : (Effect.database r).Answer}
      (answers : w.Answers (.database r) answer w') (x : Cache.Stored)
      (live : w'.cached? (Key.user user.id) = some x) : w.cached? (Key.user user.id) = some x :=
    answers.of_database.2.1 _ ▸ live
  have pending : s₀ = .pending → i = none := by
    rintro rfl
    cases i with
    | none => rfl
    | some j =>
      obtain ⟨_, reading⟩ := h.readers j
      cases at_.symm.trans reading
  have dirty {affected news} : s₀ = .dirty affected news → i = none := by
    rintro rfl
    cases i with
    | none => rfl
    | some j =>
      obtain ⟨_, reading⟩ := h.readers j
      cases at_.symm.trans reading
  have tables := fun under => move.tables_eq answers under
  cases move with
  | @load known r answer read asks =>
    have does : deed? ⟨i, .database r, .ok answer⟩ = some (i, .load) := by
      rw [deed?_database, read]
      rfl
    refine ⟨passed, h.read at_ answers (tables nofun) (fun l knows => ?_) (fun x live => .inl (entries answers x live))
      ?_⟩
    · rcases List.mem_cons.1 knows with rfl | old
      · obtain ⟨_, _, ⟨⟨_, failed⟩, _⟩ | ⟨now, served⟩⟩ := answers.of_database
        · cases failed
        · exact .inr ⟨Load.trueOf_of_serve read served, deeds_cons does trace ▸ List.mem_cons_self ..⟩
      · exact .inl old
    · rintro ⟨⟩
      cases read
  | miss read =>
    refine ⟨passed, h.read at_ answers (tables nofun) (fun _ => .inl) (fun x live => .inl (entries answers x live)) ?_⟩
    rintro ⟨⟩
    cases read
  | look looks =>
    have same := h.reliable.look looks answers (.user user.id)
    exact ⟨passed, h.read at_ answers (tables nofun) (fun _ => .inl) (fun x live => .inl (same ▸ live)) nofun⟩
  | @fill known item _ positive told =>
    obtain ⟨_, _, others, written, _⟩ := h.reliable.set answers positive
    refine ⟨passed, h.read at_ answers (tables nofun) (fun _ => .inl) (fun x live => ?_) nofun⟩
    by_cases own : item.key = Key.user user.id
    · rw [← own, written] at live
      obtain rfl := Option.some.inj live
      exact .inr ⟨[item.key], rfl, List.mem_singleton.2 own.symm, told.tells (d := .user user.id) own⟩
    · exact .inl (others _ own ▸ live)
  | fillMany _ told =>
    refine ⟨passed, h.read at_ answers (tables nofun) (fun _ => .inl) (fun x live => ?_) nofun⟩
    rcases h.reliable.setMany answers live with ⟨old, _⟩ | ⟨item, member, own, rfl⟩
    · exact .inl old
    · exact .inr ⟨_, rfl, List.mem_map.2 ⟨item, member, own⟩, (told item member).tells (d := .user user.id) own⟩
  | drop =>
    refine ⟨passed, h.read at_ answers (tables nofun) (fun _ => .inl) (fun x live => ?_) nofun⟩
    rw [h.reliable.delete answers] at live
    split at live
    · cases live
    · exact .inl live
  | @write answer =>
    obtain rfl := pending rfl
    cases answer with
    | none =>
      have settled : (Write.updateUser user).stance a none = .reading [] := if_pos (.inr rfl)
      rw [settled]
      obtain ⟨_, _, ⟨⟨_, failed⟩, _⟩ | ⟨now, served⟩⟩ := answers.of_database
      · cases failed
      · exact ⟨[], h.leave at_ (h.reliable.answered answers) (eq_of_updateUser_none served) nofun nofun⟩
    | some row =>
      obtain ⟨_, _, ⟨⟨_, failed⟩, _⟩ | ⟨now, served⟩⟩ := answers.of_database
      · cases failed
      · have own := user_mem_affected (row?_of_updateUser served).1
        have stance : (Write.updateUser user).stance a (some row) = .dirty _ [] :=
          if_neg (by simp [enabled, List.ne_nil_of_mem own])
        rw [stance]
        exact ⟨_, h.commit at_ own answers⟩
  | refuse =>
    obtain rfl := pending rfl
    obtain ⟨_, _, ⟨_, same⟩ | ⟨now, served⟩⟩ := answers.of_database
    · exact ⟨[], h.leave at_ (h.reliable.answered answers) same nofun nofun⟩
    · cases served
  | clean covers =>
    obtain rfl := dirty rfl
    refine ⟨_, h.settle at_ .drop (h.reliable.answered answers) (tables nofun) trivial rfl nofun
      fun own x live => ?_⟩
    have gone : Key.user user.id ∈ _ := covers (.user user.id) own
    rw [h.reliable.delete answers, if_pos gone] at live
    cases live
  | refresh _ told covers =>
    obtain rfl := dirty rfl
    refine ⟨_, h.settle at_ (.fill _) (h.reliable.answered answers) (tables nofun) trivial rfl nofun
      fun own x live => ?_⟩
    rcases h.reliable.setMany answers live with ⟨_, apart⟩ | ⟨item, member, own, rfl⟩
    · obtain ⟨item, member, same⟩ := covers _ own
      exact absurd same (apart item member)
    · exact (told item member).tells (d := .user user.id) own
  | fail plain =>
    rw [h.reliable.isIncrement_of_error answers] at plain
    cases plain
  | quiet quiet =>
    rw [← at_, Function.update_eq_self, answers.eq_of_isQuiet quiet]
    exact ⟨passed, h.quiet quiet⟩

end Renewing

end Accounts

end AccountCache
