import AccountCache.Proofs.Coherence.Coherent
import AccountCache.Proofs.Refreshing.Conduct
import AccountCache.Proofs.Sequential.Calm

namespace AccountCache

open Database (Tables)
open Simulation (World Event Interleaved Circumstances Runs)

namespace Simulation.World

variable {w w' : World} {e : Effect} {answer : e.Answer}

theorem Answers.databaseFault_eq (answers : w.Answers e answer w') : w'.databaseFault = w.databaseFault := by
  cases answers with
  | cache _ =>
    rw [serveCache]
    split <;> rfl
  | database r =>
    cases fault : w.databaseFault r with
    | some e => rfl
    | none => rfl
  | _ => rfl

theorem Answers.tables_of_isAside (answers : w.Answers e answer w') (aside : e.IsAside) : w'.tables = w.tables := by
  cases e with
  | cache r => exact answers.tables_eq
  | database r =>
    obtain ⟨_, _, ⟨_, same⟩ | ⟨now, served⟩⟩ := answers.of_database
    · exact same
    · rw [← w.tables.serve_of_isRead now aside, served]
  | _ => rw [answers.eq_of_isQuiet trivial]

/-- Whatever is cached under a token after something aside was
cached before. -/
theorem Reliable.cached?_of_isAside (reliable : w.Reliable) (answers : w.Answers e answer w') (aside : e.IsAside) :
    w'.Reliable ∧ ∀ text x, w'.cached? (Key.token text) = some x → w.cached? (Key.token text) = some x := by
  cases e with
  | cache r =>
    refine ⟨reliable.cache answers, fun text x live => ?_⟩
    cases r with
    | set entry =>
      have away : Key.token text ∉ Cache.Request.keys (.set entry) := fun named =>
        aside text (List.mem_singleton.1 named).symm
      rwa [reliable.cached?_eq answers away] at live
    | delete keys =>
      rw [reliable.delete answers] at live
      split at live
      · cases live
      · exact live
    | get | acquire | release | isHeld =>
      refine (reliable.look ?_ answers (.token text)).symm.trans live
      trivial
    | setMany | increment | expire | ttl => cases aside
  | database r =>
    obtain ⟨kept, entries, _⟩ := answers.of_database
    exact ⟨kept reliable, fun text x live => (entries (Key.token text)).symm.trans live⟩
  | _ =>
    rw [answers.eq_of_isQuiet trivial]
    exact ⟨reliable, fun _ _ live => live⟩

end Simulation.World

namespace Accounts

open Turn (Drops Moves)

/-- Whether a token is one of those that a session has, or one that a
refresh gave it which read the session back before the other refresh reached
the database. -/
def Remains (old : Session) (tokens : Bool → SessionTokens) (t : Tables) (past : List (Bool × Deed)) (i : Bool)
    (text : String) : Prop :=
  (∃ row type, t.sessions.find? old.id = some row ∧ row.token type = text) ∨
    (∃ type, (tokens i).token type = text) ∧ [(!i, Deed.write), (i, .load), (i, .write)].Sublist past

/-- Why something may be cached under a token: a refresh has yet to drop it,
or one has read that the session has the token. -/
def Expects (old : Session) (tokens : Bool → SessionTokens) (places : Bool → Turn) (text : String) : Prop :=
  (∃ i, ¬(places i).IsSettled ∧ Drops old (tokens i) text) ∨
    ∃ i s type, places i = .informed s ∧ s.token type = text

/-- What is true at all times of two refreshes of a session and of what is
cached under the tokens that they know of. -/
structure Refreshing (old : Session) (tokens : Bool → SessionTokens) (trace : List (Event Bool)) (w : World)
    (places : Bool → Turn) : Prop where
  reliable : w.Reliable
  faultless : ∀ r, w.databaseFault r = none
  /-- The session has the tokens of the refresh that alone has reached
  the database. -/
  holds : ∃ row, w.tables.sessions.find? old.id = some row ∧
    ∀ i, places i ≠ .waiting → places (!i) = .waiting → row.token = (tokens i).token
  wrote : ∀ i, places i ≠ .waiting → (i, Deed.write) ∈ deeds trace
  knows : ∀ i s, places i = .informed s → [(i, Deed.load), (i, .write)].Sublist (deeds trace) ∧
    ∀ type, Remains old tokens w.tables (deeds trace) i (s.token type)
  entries : ∀ text e, w.cached? (Key.token text) = some e → (∃ i, Drops old (tokens i) text) →
    Expects old tokens places text

variable {old : Session} {tokens : Bool → SessionTokens} {trace trace' : List (Event Bool)} {w w' : World}
  {places : Bool → Turn} {i : Bool} {s₀ s : Turn} {text : String}

theorem Remains.mono {t : Tables} {past past' : List (Bool × Deed)} (left : Remains old tokens t past i text)
    (longer : past.Sublist past') : Remains old tokens t past' i text :=
  left.imp_right fun ⟨own, order⟩ => ⟨own, order.trans longer⟩

namespace Refreshing

/-- As long as the session stays and nothing is cached under a token,
refreshes stay as they are. -/
theorem mono (h : Refreshing old tokens trace w places) (reliable : w'.Reliable) (tables : w'.tables = w.tables)
    (faults : w'.databaseFault = w.databaseFault) (longer : (deeds trace).Sublist (deeds trace'))
    (origin : ∀ text e, w'.cached? (Key.token text) = some e → w.cached? (Key.token text) = some e) :
    Refreshing old tokens trace' w' places where
  reliable := reliable
  faultless := faults ▸ h.faultless
  holds := tables ▸ h.holds
  wrote i begun := longer.subset (h.wrote i begun)
  knows i s at_ := by
    obtain ⟨order, left⟩ := h.knows i s at_
    exact ⟨order.trans longer, fun type => tables ▸ (left type).mono longer⟩
  entries text e live := h.entries text e (origin text e live)

/-- A refresh that goes on leaves the reasons for what is cached, but for
what it drops. -/
theorem entries_update (h : Refreshing old tokens trace w places) (at_ : places i = s₀) {e : Cache.Stored}
    (live : w.cached? (Key.token text) = some e) (named : ∃ i, Drops old (tokens i) text)
    (drops : ¬s₀.IsSettled → s.IsSettled → ¬Drops old (tokens i) text) (informed : ∀ x, s₀ ≠ .informed x) :
    Expects old tokens (Function.update places i s) text := by
  rcases h.entries text e live named with ⟨j, unsettled, own⟩ | ⟨j, x, type, at', own⟩
  · refine .inl ⟨j, ?_, own⟩
    by_cases same : j = i
    · subst same
      rw [Function.update_self]
      rw [at_] at unsettled
      exact fun settled => drops unsettled settled own
    · rwa [Function.update_of_ne same]
  · refine .inr ⟨j, x, type, ?_, own⟩
    have differ : j ≠ i := by
      rintro rfl
      exact informed x (at_.symm.trans at')
    rwa [Function.update_of_ne differ]

variable {e : Effect} {answer : e.Answer}

theorem swap (h : Refreshing old tokens trace w places) (at_ : places i = .waiting)
    {answer : (Effect.database (.updateTokens old.id (tokens i))).Answer}
    (answers : w.Answers (.database (.updateTokens old.id (tokens i))) answer w') :
    answer = .ok () ∧ Refreshing old tokens (⟨i, .database (.updateTokens old.id (tokens i)), answer⟩ :: trace) w'
      (Function.update places i .swapped) := by
  obtain ⟨row, held, alone⟩ := h.holds
  have faults := answers.databaseFault_eq
  obtain ⟨reliable, entries, _⟩ := answers.of_database
  obtain ⟨now, served⟩ : ∃ now, w.tables.updateTokens now old.id (tokens i) = (answer, w'.tables) := by
    cases answers with
    | database _ =>
      rw [h.faultless]
      exact ⟨_, rfl⟩
  rw [Tables.updateTokens, held] at served
  obtain ⟨rfl, tables⟩ := Prod.mk.inj served
  have begun : deeds (⟨i, .database (.updateTokens old.id (tokens i)), .ok ()⟩ :: trace) =
      (i, Deed.write) :: deeds trace := deeds_cons rfl trace
  have longer := deeds_sublist (⟨i, .database (.updateTokens old.id (tokens i)), .ok ()⟩ : Event Bool) trace
  refine ⟨rfl, reliable h.reliable, faults ▸ h.faultless, ?_, fun j started => ?_, fun j x at' => ?_,
    fun text e live named => ?_⟩
  · refine ⟨_, by rw [← tables]; exact SortedMap.find?_insert_self .., fun j started stays => ?_⟩
    by_cases same : j = i
    · subst same
      funext type
      cases type <;> rfl
    · have other : (!j) = i := Bool.not_eq_eq_eq_not.2 (Bool.eq_not.2 same)
      rw [other, Function.update_self] at stays
      cases stays
  · rw [begun]
    by_cases same : j = i
    · subst same
      exact List.mem_cons_self ..
    · rw [Function.update_of_ne same] at started
      exact List.mem_cons_of_mem _ (h.wrote j started)
  · have differ : j ≠ i := by
      rintro rfl
      rw [Function.update_self] at at'
      cases at'
    have other : (!j) = i := by
      cases i <;> cases j <;> simp_all
    rw [Function.update_of_ne differ] at at'
    obtain ⟨order, left⟩ := h.knows j x at'
    refine ⟨order.trans longer, fun type => .inr ?_⟩
    rcases left type with ⟨row', type', held', own⟩ | ⟨own, late⟩
    · rw [held] at held'
      obtain rfl := Option.some.inj held'
      have started : places j ≠ .waiting := by
        rw [at']
        rintro ⟨⟩
      -- The row that the other refresh read had its own tokens, and is overwritten now.
      rw [alone j started (by rw [other, at_])] at own
      refine ⟨⟨type', own⟩, ?_⟩
      rw [begun, other]
      exact order.cons_cons _
    · exact ⟨own, late.trans longer⟩
  · rw [entries] at live
    refine h.entries_update at_ live named (fun _ settled => settled.elim) ?_
    rintro x ⟨⟩

theorem update_eq_waiting (begun : places i ≠ .waiting) (begun' : s ≠ .waiting) (j : Bool) :
    Function.update places i s j = .waiting ↔ places j = .waiting := by
  by_cases same : j = i
  · subst same
    rw [Function.update_self]
    exact iff_of_false begun' begun
  · rw [Function.update_of_ne same]

theorem advance (h : Refreshing old tokens trace w places) (begun : places i ≠ .waiting) (begun' : s ≠ .waiting)
    {event : Event Bool} (reliable : w'.Reliable) (tables : w'.tables = w.tables)
    (faults : w'.databaseFault = w.databaseFault)
    (learns : ∀ x, s = .informed x → places i = .informed x ∨
      [(i, Deed.load), (i, .write)].Sublist (deeds (event :: trace)) ∧
        ∀ type, Remains old tokens w.tables (deeds (event :: trace)) i (x.token type))
    (entries : ∀ text e, w'.cached? (Key.token text) = some e → (∃ i, Drops old (tokens i) text) →
      Expects old tokens (Function.update places i s) text) :
    Refreshing old tokens (event :: trace) w' (Function.update places i s) where
  reliable := reliable
  faultless := faults ▸ h.faultless
  holds := by
    obtain ⟨row, held, alone⟩ := h.holds
    refine ⟨row, tables ▸ held, fun j started stays => ?_⟩
    rw [Ne, update_eq_waiting begun begun'] at started
    rw [update_eq_waiting begun begun'] at stays
    exact alone j started stays
  wrote j started := by
    rw [Ne, update_eq_waiting begun begun'] at started
    exact (deeds_sublist event trace).subset (h.wrote j started)
  knows j x at' := by
    have before : places j = .informed x → [(j, Deed.load), (j, .write)].Sublist (deeds (event :: trace)) ∧
        ∀ type, Remains old tokens w.tables (deeds (event :: trace)) j (x.token type) := by
      intro at'
      obtain ⟨order, left⟩ := h.knows j x at'
      exact ⟨order.trans (deeds_sublist event trace), fun type => (left type).mono (deeds_sublist event trace)⟩
    rw [tables]
    by_cases same : j = i
    · subst same
      rw [Function.update_self] at at'
      exact (learns x at').elim before id
    · rw [Function.update_of_ne same] at at'
      exact before at'
  entries := entries

theorem drop (h : Refreshing old tokens trace w places) (at_ : places i = .swapped) {keys : List String}
    (covers : ∀ text, Drops old (tokens i) text → Key.token text ∈ keys)
    {answer : (Effect.cache (.delete keys)).Answer} (answers : w.Answers (.cache (.delete keys)) answer w') :
    Refreshing old tokens (⟨i, .cache (.delete keys), answer⟩ :: trace) w'
      (Function.update places i .dropped) := by
  have begun : places i ≠ .waiting := by
    rw [at_]
    nofun
  refine h.advance (s := .dropped) begun nofun (h.reliable.cache answers) answers.tables_eq
    answers.databaseFault_eq (fun _ => nofun) fun text e live named => ?_
  rw [h.reliable.delete answers] at live
  split at live
  · cases live
  · next kept => exact h.entries_update at_ live named (fun _ _ own => kept (covers text own)) fun _ => nofun

theorem read (h : Refreshing old tokens trace w places) (at_ : places i = .dropped) {x : Session}
    (answers : w.Answers (.database (.findSession old.id)) (.ok (some x)) w') :
    Refreshing old tokens (⟨i, .database (.findSession old.id), .ok (some x)⟩ :: trace) w'
      (Function.update places i (.informed x)) := by
  have begun : places i ≠ .waiting := by
    rw [at_]
    nofun
  have faults := answers.databaseFault_eq
  have tables := answers.tables_of_isAside rfl
  obtain ⟨reliable, entries, ⟨⟨_, failed⟩, _⟩ | ⟨now, served⟩⟩ := answers.of_database
  · cases failed
  · refine h.advance (s := .informed x) begun nofun (reliable h.reliable) tables faults (fun x' told => ?_)
      fun text e live named => ?_
    · cases told
      have loads : deeds (⟨i, .database (.findSession old.id), .ok (some x)⟩ :: trace) =
          (i, Deed.load) :: deeds trace := deeds_cons rfl trace
      have order := (List.singleton_sublist.2 (h.wrote i begun)).cons_cons (i, Deed.load)
      refine .inr ⟨loads ▸ order, fun type => .inl ?_⟩
      obtain ⟨answered, _⟩ := Prod.mk.inj served
      obtain ⟨row, held, rfl⟩ := Option.map_eq_some_iff.1 (Except.ok.inj answered)
      refine ⟨row, type, held, ?_⟩
      cases type <;> rfl
    · rw [entries] at live
      exact h.entries_update at_ live named (fun unsettled => absurd trivial unsettled) fun _ => nofun

theorem fill (h : Refreshing old tokens trace w places) {x : Session} (at_ : places i = .informed x)
    {items : List Cache.Entry}
    (told : ∀ e ∈ items, ∀ text, e.key = Key.token text → ∃ type, x.token type = text)
    {answer : (Effect.cache (.setMany items)).Answer} (answers : w.Answers (.cache (.setMany items)) answer w') :
    Refreshing old tokens (⟨i, .cache (.setMany items), answer⟩ :: trace) w'
      (Function.update places i (.informed x)) := by
  have begun : places i ≠ .waiting := by
    rw [at_]
    nofun
  refine h.advance (s := .informed x) begun nofun (h.reliable.cache answers) answers.tables_eq
    answers.databaseFault_eq (fun x' same => .inl (at_.trans same)) fun text e live named => ?_
  rw [← at_, Function.update_eq_self]
  rcases h.reliable.setMany answers live with ⟨before, _⟩ | ⟨item, member, own, rfl⟩
  · exact h.entries text e before named
  · obtain ⟨type, same⟩ := told item member text own
    exact .inr ⟨i, x, type, at_, same⟩

/-- Whatever a refresh does by its rules keeps this so. The cases are those
of `Moves`. -/
theorem step (h : Refreshing old tokens trace w places) (answers : w.Answers e answer w')
    (move : Moves old (tokens i) (places i) e answer s) :
    Refreshing old tokens (⟨i, e, answer⟩ :: trace) w' (Function.update places i s) := by
  generalize at_ : places i = s₀ at move
  cases move with
  | swap => exact (h.swap at_ answers).2
  | refuse => cases (h.swap at_ answers).1
  | drop covers => exact h.drop at_ covers answers
  | read => exact h.read at_ answers
  | fill told => exact h.fill at_ told answers
  | fail plain =>
    rw [h.reliable.isIncrement_of_error answers] at plain
    cases plain
  | aside aside =>
    rw [← at_, Function.update_eq_self]
    obtain ⟨reliable, origin⟩ := h.reliable.cached?_of_isAside answers aside
    exact h.mono reliable (answers.tables_of_isAside aside) answers.databaseFault_eq (deeds_sublist _ trace) origin

end Refreshing

variable {a : Accounts} {c : Circumstances} {world : World} {ps : Bool → Action (Except Error (Option Session))}

theorem exists_refreshing (enabled : a.cache.policy.disabled = false)
    (run : Interleaved (fun _ _ => True) world (fun i => (a.refreshSession old (tokens i)).run) trace w ps)
    (reliable : world.Reliable) (faultless : ∀ r, world.databaseFault r = none) {row : Session}
    (held : world.tables.sessions.find? old.id = some row) :
    ∃ places, Refreshing old tokens trace w places ∧
      ∀ i, (ps i).Conforms (Moves old (tokens i)) (fun s _ => s.IsSettled) (places i) := by
  refine run.invariant (fun trace w places => Refreshing old tokens trace w places) (fun i => Moves old (tokens i))
    (fun _ => .waiting) ?_ (fun _ => conforms_refreshSession enabled) (fun h _ => ?_) fun h => h.step
  · exact {
      reliable, faultless
      holds := ⟨row, held, fun _ begun => absurd rfl begun⟩
      wrote := fun _ begun => absurd rfl begun
      knows := fun _ _ => nofun
      entries := fun _ _ _ ⟨i, own⟩ => .inl ⟨i, id, own⟩ }
  · exact h.mono (h.reliable.advanceTo _) rfl rfl (List.Sublist.refl _) fun _ _ => World.cached?_of_advanceTo

theorem enabled_of_checkToken (known : Runs c (a.checkToken text) w true w') : a.cache.policy.disabled = false := by
  cases disabled : a.cache.policy.disabled with
  | false => rfl
  | true =>
    rw [checkToken, Cache.Manager.get, disabled] at known
    cases known

theorem exists_live_of_checkToken (reliable : w.Reliable) (known : Runs c (a.checkToken text) w true w') :
    ∃ later e, (w.advanceTo later).cached? (Key.token text) = some e ∧ e.value ≠ Cache.nilBytes ∧
      (w.advanceTo later).Answers (.cache (.get (Key.token text))) (.ok (some e.value)) w' := by
  rw [checkToken, Cache.Manager.get, enabled_of_checkToken known] at known
  cases known with
  | ask looked rest =>
    obtain ⟨later, _, serves⟩ := looked
    cases serves with
    | other _ answers =>
      obtain ⟨_, rfl, _⟩ := (reliable.advanceTo later).get answers
      cases found : (w.advanceTo later).cached? (Key.token text) with
      | none =>
        rw [found] at rest
        cases rest
      | some e =>
        rw [found] at rest answers
        obtain ⟨present, rfl⟩ := rest.eq_of_done
        refine ⟨later, e, found, fun mark => ?_, answers⟩
        rw [Cache.Cached.ofBytes, if_pos mark] at present
        cases present

theorem exists_cached_of_checkToken (reliable : w.Reliable) (known : Runs c (a.checkToken text) w true w') :
    w'.tables = w.tables ∧ ∃ e, w.cached? (Key.token text) = some e := by
  obtain ⟨_, e, live, _, answers⟩ := exists_live_of_checkToken reliable known
  exact ⟨answers.tables_eq, e, World.cached?_of_advanceTo live⟩

/-- Of the tokens that two refreshes know of, those that the session does
not have are void afterwards, but for the tokens of a refresh that read the
session back before the other refresh reached the database. -/
theorem known_after_refreshes
    (run : Interleaved (fun _ _ => True) world (fun i => (a.refreshSession old (tokens i)).run) trace w ps)
    (reliable : world.Reliable) (faultless : ∀ r, world.databaseFault r = none)
    (held : ∃ row, world.tables.sessions.find? old.id = some row) (returned : ∀ i, ∃ outcome, ps i = .done outcome)
    (named : (∃ type, old.token type = text) ∨ ∃ i type, (tokens i).token type = text)
    (known : Runs c (a.checkToken text) w true w') :
    (∃ row type, w'.tables.sessions.find? old.id = some row ∧ row.token type = text) ∨
      ∃ i, (∃ type, (tokens i).token type = text) ∧
        [(!i, Deed.write), (i, .load), (i, .write)].Sublist (deeds trace) := by
  obtain ⟨row, held⟩ := held
  obtain ⟨places, now, conform⟩ := exists_refreshing (enabled_of_checkToken known) run reliable faultless held
  have settled : ∀ i, (places i).IsSettled := by
    intro i
    obtain ⟨outcome, ended⟩ := returned i
    have ends := conform i
    rw [ended] at ends
    exact ends
  obtain ⟨tables, e, live⟩ := exists_cached_of_checkToken now.reliable known
  have drops : ∃ i, Drops old (tokens i) text :=
    named.elim (fun own => ⟨true, .inl own⟩) fun ⟨i, own⟩ => ⟨i, .inr own⟩
  rcases now.entries text e live drops with ⟨i, unsettled, _⟩ | ⟨i, x, type, at_, rfl⟩
  · exact absurd (settled i) unsettled
  · rw [tables]
    exact ((now.knows i x at_).2 type).imp_right fun left => ⟨i, left⟩

theorem runs_checkToken_of_cached {bytes : Bytes} (roomy : c.bounded → w.clock.Roomy)
    (enabled : a.cache.policy.disabled = false) (present : bytes ≠ Cache.nilBytes)
    (answered : (w.serveCache (.get (Key.token text))).1 = some (.ok (some bytes))) :
    Runs c (a.checkToken text) w true (w.serveCache (.get (Key.token text))).2 := by
  have known : (!(Cache.Cached.ofBytes bytes).isAbsent) = true := by
    rw [Cache.Cached.ofBytes, if_neg present]
    rfl
  rw [checkToken, Cache.Manager.get, enabled]
  refine .call roomy answered ?_
  show Runs c (.done (!(Cache.Cached.ofBytes bytes).isAbsent)) _ _ _
  rw [known]
  exact .done

set_option maxRecDepth 8000 in
/-- A session is created and refreshed, and some time later refreshed again
by who knows only what it was first. -/
theorem refreshed_in_turn : ∃ (a : Accounts) (old : Session) (tokens : Bool → SessionTokens) (before world : World)
    (trace : List (Event Bool)) (w : World) (ps : Bool → Action (Except Error (Option Session))),
    Runs ⟨False, fun _ => False, False⟩ (a.createSession old).run before (.ok old) world ∧
    Interleaved (fun _ _ => True) world (fun i => (a.refreshSession old (tokens i)).run) trace w ps ∧
    world.Reliable ∧ (∀ r, world.databaseFault r = none) ∧
    (∃ row, world.tables.sessions.find? old.id = some row) ∧ (∀ i, ∃ outcome, ps i = .done outcome) ∧
    (∃ row, w.tables.sessions.find? old.id = some row ∧ ∀ type, row.token type ≠ (tokens true).accessToken) ∧
    ∃ w', Runs ⟨False, fun _ => False, False⟩ (a.checkToken (tokens true).accessToken) w true w' := by
  have created : Runs ⟨False, fun _ => False, False⟩ (createSession ⟨default, ⟨5, .ofSeconds 60⟩⟩
      ⟨1, .zero, "a", "r", ⟨3600000000000, 0⟩, ⟨3600000000000, 0⟩, "", "", .epoch, .epoch⟩).run
      { tables := ({} : Tables).putUser ⟨.zero, "n", "e", "", "", .epoch, .epoch⟩ "h" } (.ok _) _ :=
    .query False.elim (@Tables.Permits.createSession _ _
      ⟨1, .zero, "a", "r", ⟨3600000000000, 0⟩, ⟨3600000000000, 0⟩, "", "", .epoch, .epoch⟩ 1 rfl (by decide)
      (by decide)) False.elim
      (.wallClock False.elim .epoch (.wallClock False.elim .epoch (.call False.elim rfl .done)))
  have fresh := fun c before old world
      (_ : Runs c (createSession ⟨default, ⟨5, .ofSeconds 60⟩⟩ old).run before (.ok old) world) =>
    @Interleaved.start Bool _ _ (fun _ _ => True) world fun i => (refreshSession ⟨default, ⟨5, .ofSeconds 60⟩⟩ old
      (if i then ⟨"b", "s", ⟨3600000000000, 0⟩, ⟨3600000000000, 0⟩, ""⟩
        else ⟨"c", "t", ⟨3600000000000, 0⟩, ⟨3600000000000, 0⟩, ""⟩)).run
  -- One refresh from its first request to its last: it caches the session under its tokens.
  have swapped := (fresh _ _ _ _ created).step true rfl (.database _)
  have dropped := swapped.call true rfl _ rfl
  have missed := dropped.call true rfl _ rfl
  have locked := missed.call true rfl _ rfl
  have loaded := locked.step true rfl (.database _)
  have missedUser := loaded.call true rfl _ rfl
  have lockedUser := missedUser.call true rfl _ rfl
  have loadedUser := lockedUser.step true rfl (.database _)
  have filled := loadedUser.call true rfl _ rfl
  have released := filled.call true rfl _ rfl
  have now := released.step true rfl .wallClock
  have later := now.step true rfl .wallClock
  have cached := later.call true rfl _ rfl
  have done := cached.call true rfl _ rfl
  -- The other makes the same requests once the cached user is gone: it drops the tokens that the session had at
  -- first, and its own.
  have waited : Interleaved _ _ _ _ (World.advanceTo _ ⟨20000000000⟩) _ := done.wait trivial
  have swapped := waited.step false rfl (.database _)
  have dropped := swapped.call false rfl _ rfl
  have missed := dropped.call false rfl _ rfl
  have locked := missed.call false rfl _ rfl
  have loaded := locked.step false rfl (.database _)
  have missedUser := loaded.call false rfl _ rfl
  have lockedUser := missedUser.call false rfl _ rfl
  have loadedUser := lockedUser.step false rfl (.database _)
  have filled := loadedUser.call false rfl _ rfl
  have released := filled.call false rfl _ rfl
  have now := released.step false rfl .wallClock
  have later := now.step false rfl .wallClock
  have cached := later.call false rfl _ rfl
  have ended := cached.call false rfl _ rfl
  refine ⟨_, _, _, _, _, _, _, _, created, ended, ⟨⟨_, _, rfl⟩, fun _ => rfl⟩, fun _ => rfl, ⟨_, rfl⟩, fun i => ?_,
    ⟨_, rfl, ?_⟩, ?_⟩
  · cases i with
    | true => exact ⟨_, rfl⟩
    | false => exact ⟨_, rfl⟩
  · intro type
    cases type <;> decide
  · refine ⟨_, runs_checkToken_of_cached False.elim rfl ?_ rfl⟩
    have faithful := Session.faithful
      (s := ⟨1, .zero, "b", "s", ⟨3600000000000, 0⟩, ⟨3600000000000, 0⟩, "", "", .epoch, .epoch⟩) (by decide)
      (by decide)
    exact faithful.ne_nilBytes rfl rfl

/-- A token may be known that the session does not have. -/
theorem known_after_refreshes_in_turn : ∃ (a : Accounts) (old : Session) (tokens : Bool → SessionTokens)
    (world : World) (trace : List (Event Bool)) (w w' : World) (ps : Bool → Action (Except Error (Option Session))),
    Interleaved (fun _ _ => True) world (fun i => (a.refreshSession old (tokens i)).run) trace w ps ∧
    (∀ i, ∃ outcome, ps i = .done outcome) ∧
    Runs ⟨False, fun _ => False, False⟩ (a.checkToken (tokens true).accessToken) w true w' ∧
    ((∃ row type, w'.tables.sessions.find? old.id = some row ∧ row.token type = (tokens true).accessToken) ∨
      ∃ i, (∃ type, (tokens i).token type = (tokens true).accessToken) ∧
        [(!i, Deed.write), (i, .load), (i, .write)].Sublist (deeds trace)) := by
  obtain ⟨a, old, tokens, _, world, trace, w, ps, _, run, reliable, faultless, held, returned, _, w', known⟩ :=
    refreshed_in_turn
  exact ⟨a, old, tokens, world, trace, w, w', ps, run, returned, known,
    known_after_refreshes run reliable faultless held returned (.inr ⟨true, .access, rfl⟩) known⟩

/-- Not every token is void that a session has lost after two refreshes. -/
theorem lost_token_known : ¬∀ (a : Accounts) (old : Session) (tokens : Bool → SessionTokens) (before world : World)
    (trace : List (Event Bool)) (w w' : World) (ps : Bool → Action (Except Error (Option Session))) (text : String),
    Runs ⟨False, fun _ => False, False⟩ (a.createSession old).run before (.ok old) world →
    Interleaved (fun _ _ => True) world (fun i => (a.refreshSession old (tokens i)).run) trace w ps →
    world.Reliable → (∀ r, world.databaseFault r = none) → (∀ i, ∃ outcome, ps i = .done outcome) →
    ((∃ type, old.token type = text) ∨ ∃ i type, (tokens i).token type = text) →
    Runs ⟨False, fun _ => False, False⟩ (a.checkToken text) w true w' →
    ∃ row type, w.tables.sessions.find? old.id = some row ∧ row.token type = text := by
  intro void
  obtain ⟨a, old, tokens, before, world, trace, w, ps, created, run, reliable, faultless, _, returned,
    ⟨row, held, lost⟩, w', known⟩ := refreshed_in_turn
  obtain ⟨row', type, held', own⟩ := void a old tokens before world trace w w' ps _ created run reliable faultless
    returned (.inr ⟨true, .access, rfl⟩) known
  rw [held] at held'
  obtain rfl := Option.some.inj held'
  exact lost type own

end Accounts

end AccountCache
