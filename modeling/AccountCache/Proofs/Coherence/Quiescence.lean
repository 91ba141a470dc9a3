import AccountCache.Proofs.Coherence.Coherent
import AccountCache.Proofs.Coherence.Writers

namespace AccountCache

open Database (Tables)
open Simulation (Event World Interleaved)

namespace Accounts

variable {ι : Type}

def clients (a : Accounts) (write : Write) (reads : ι → Read) : Option ι → Action Unit
  | none => write.perform a
  | some i => (reads i).perform a

def Asks (reads : ι → Read) (text : String) (type : TokenType) : Prop := ∃ i, reads i = .session type text

/-- Whether a reader asks for a token under a type under which no session
has it, and a session has it under the other. -/
def Mistyped (reads : ι → Read) (t : Tables) (d : Datum) : Prop :=
  ∃ text type, d = .token text ∧ Asks reads text type ∧ (∀ row ∈ t.sessions.values, row.token type ≠ text) ∧
    ∃ row ∈ t.sessions.values, ∃ other, row.token other = text

def beginning : Option ι → Stance
  | none => .pending
  | some _ => .reading []

variable {mayPass : World → Instant → Prop} {a : Accounts} {write : Write} {reads : ι → Read}
  {world w w' : World} {trace : List (Event (Option ι))} {ps : Option ι → Action Unit}

theorem conforms_clients (i : Option ι) :
    (clients a write reads i).Conforms (Stance.Moves a (Asks reads) write) (fun s _ => s.IsReading) (beginning i) := by
  cases i with
  | none => exact write.conforms
  | some i => exact (reads i).conforms fun type text same => ⟨i, same⟩

theorem Coherent.start (reliable : world.Reliable) (uncached : ∀ key, world.cached? key = none) :
    Coherent (Asks reads) write world.tables [] world (beginning : Option ι → Stance) [] [] where
  reliable := reliable
  phase := .pending rfl
  changed d := .inr (.inr (Datum.Keeps.refl _ d))
  readers i := ⟨[], rfl⟩
  heard i := by
    cases i with
    | none | some i => exact fun _ => nofun
  shown d e live := by
    rw [uncached] at live
    cases live

/-- With a disabled cache nothing is ever cached. -/
theorem Stance.Moves.uncached {asked : String → TokenType → Prop} {s s' : Stance} {e : Effect}
    {answer : e.Answer} (move : Stance.Moves a asked write s e answer s') (answers : w.Answers e answer w')
    (disabled : a.cache.policy.disabled = true) (reliable : w.Reliable)
    (uncached : ∀ d : Datum, w.cached? d.key = none) :
    w'.Reliable ∧ ∀ d : Datum, w'.cached? d.key = none := by
  cases move with
  | load | miss | write | refuse =>
    obtain ⟨stays, entries, _⟩ := answers.of_database
    exact ⟨stays reliable, fun d => (entries d.key).trans (uncached d)⟩
  | look looks => exact ⟨reliable.cache answers, fun d => (reliable.look looks answers d).trans (uncached d)⟩
  | fill enabled | fillMany enabled | refresh enabled =>
    rw [disabled] at enabled
    cases enabled
  | drop | clean =>
    refine ⟨reliable.cache answers, fun d => ?_⟩
    rw [reliable.delete answers, uncached, ite_self]
  | fail plain =>
    rw [reliable.isIncrement_of_error answers] at plain
    cases plain
  | quiet quiet =>
    rw [answers.eq_of_isQuiet quiet]
    exact ⟨reliable, uncached⟩

variable [DecidableEq ι]

theorem coherent_of_interleaved (run : Interleaved mayPass world (clients a write reads) trace w ps)
    (enabled : a.cache.policy.disabled = false) (reliable : world.Reliable) (sound : world.tables.Sound)
    (uncached : ∀ key, world.cached? key = none) :
    ∃ places, (∃ affected passed, Coherent (Asks reads) write world.tables trace w places affected passed) ∧
      ∀ i, (ps i).Conforms (Stance.Moves a (Asks reads) write) (fun s _ => s.IsReading) (places i) := by
  refine run.invariant
    (fun trace w places => ∃ affected passed,
      Coherent (Asks reads) write world.tables trace w places affected passed)
    (fun _ => Stance.Moves a (Asks reads) write) beginning ⟨[], [], .start reliable uncached⟩
    conforms_clients ?_ ?_
  · rintro trace w places later ⟨affected, passed, h⟩ _
    exact ⟨affected, passed, h.mono (h.reliable.advanceTo later) rfl (List.Sublist.refl _)
      fun _ _ => World.cached?_of_advanceTo⟩
  · rintro trace w places i e answer w' s ⟨affected, passed, h⟩ answers move
    exact h.step sound enabled answers move

theorem uncached_of_interleaved (run : Interleaved mayPass world (clients a write reads) trace w ps)
    (disabled : a.cache.policy.disabled = true) (reliable : world.Reliable)
    (uncached : ∀ key, world.cached? key = none) (d : Datum) : w.cached? d.key = none := by
  have idle : ∃ places : Option ι → Stance, (w.Reliable ∧ ∀ d : Datum, w.cached? d.key = none) ∧
      ∀ i, (ps i).Conforms (Stance.Moves a (Asks reads) write) (fun s _ => s.IsReading) (places i) := by
    refine run.invariant (fun _ w _ => w.Reliable ∧ ∀ d : Datum, w.cached? d.key = none)
      (fun _ => Stance.Moves a (Asks reads) write) beginning ⟨reliable, fun d => uncached d.key⟩
      conforms_clients ?_ ?_
    · rintro trace w places later ⟨reliable, uncached⟩ _
      refine ⟨reliable.advanceTo later, fun d => Option.eq_none_iff_forall_ne_some.2 fun e live => ?_⟩
      have before := World.cached?_of_advanceTo live
      rw [uncached] at before
      cases before
    · rintro trace w places i e answer w' s ⟨reliable, uncached⟩ answers move
      exact move.uncached answers disabled reliable uncached
  obtain ⟨_, ⟨_, idle⟩, _⟩ := idle
  exact idle d

/-- Once the writer has returned, whatever is cached has an end, and
agrees with the database unless a reader cached it after the write from an
answer it had got before. Emails that the write took from a user, a
session that cannot be cached and tokens that were asked for under the
wrong type are left out. -/
theorem entries_agree (run : Interleaved mayPass world (clients a write reads) trace w ps)
    (reliable : world.Reliable) (sound : world.tables.Sound) (uncached : ∀ key, world.cached? key = none)
    (returned : ps none = .done ()) {d : Datum} {e : Cache.Stored} (live : w.cached? d.key = some e) :
    e.deadline.isSome ∧ (d.Agrees w.tables e.value ∨ Raced trace d.key ∨ write.Overlooks world.tables d ∨
      Mistyped reads w.tables d) := by
  cases enabled : a.cache.policy.disabled with
  | true =>
    rw [uncached_of_interleaved run enabled reliable uncached d] at live
    cases live
  | false =>
    obtain ⟨places, ⟨affected, passed, h⟩, conform⟩ := coherent_of_interleaved run enabled reliable sound uncached
    have settled := conform none
    rw [returned] at settled
    obtain ⟨known, settled⟩ := settled
    obtain ⟨ends, reports | overlooks | ⟨_, ⟨news, affects, dirty⟩ | raced⟩⟩ := h.shown d e live
    · exact ⟨ends, reports.agrees.imp_right fun ⟨text, type, mistyped⟩ => .inr (.inr ⟨text, type, mistyped⟩)⟩
    · exact ⟨ends, .inr (.inr (.inl overlooks))⟩
    · rw [settled] at dirty
      cases dirty
    · exact ⟨ends, .inr (.inl raced)⟩

/-- A reader who comes after a grant finds it. -/
theorem entries_agree_in_turn :
    ∃ trace w, ∃ ps : Option Unit → Action Unit, ∃ e,
      Interleaved (fun _ _ => True) {} (clients ⟨default, ⟨5, .ofSeconds 60⟩⟩ (.createGrant ⟨"r", "s", "a"⟩)
        fun _ => .permission) trace w ps ∧
      w.cached? Datum.permission.key = some e ∧ Datum.permission.Agrees w.tables e.value := by
  have fresh : Interleaved (fun _ _ => True) {} (clients ⟨default, ⟨5, .ofSeconds 60⟩⟩
    (.createGrant ⟨"r", "s", "a"⟩) fun _ : Unit => .permission) [] {} _ := .start
  have granted := fresh.step none rfl (.database (.createGrant ⟨"r", "s", "a"⟩))
  have dropped := granted.call none rfl _ rfl
  have looked := dropped.call (some ()) rfl _ rfl
  have locked := looked.call (some ()) rfl _ rfl
  have loaded := locked.step (some ()) rfl (.database .findGrants)
  have filled := loaded.call (some ()) rfl _ rfl
  obtain ⟨_, agrees | ⟨i, keys, deed, _, _, order⟩ | overlooks | ⟨_, _, other, _⟩⟩ :=
    entries_agree (d := .permission) filled ⟨⟨_, _, rfl⟩, fun _ => rfl⟩ Tables.sound_empty (fun _ => rfl) rfl rfl
  · exact ⟨_, _, _, _, filled, rfl, agrees⟩
  · cases order.eq_of_length rfl
  · exact overlooks.elim
  · cases other

/-- A reader asks the database before a grant and caches the
answer after it. -/
theorem stale_permission :
    ∃ trace w, ∃ ps : Option Unit → Action Unit, ∃ e,
      Interleaved (fun _ _ => True) {} (clients ⟨default, ⟨5, .ofSeconds 60⟩⟩ (.createGrant ⟨"r", "s", "a"⟩)
        fun _ => .permission) trace w ps ∧
      ({} : World).Reliable ∧ ({} : World).tables.Sound ∧ (∀ key, ({} : World).cached? key = none) ∧
      (∀ i, ps i = .done ()) ∧ w.cached? Datum.permission.key = some e ∧
      ¬Datum.permission.Agrees w.tables e.value := by
  have fresh : Interleaved (fun _ _ => True) {} (clients ⟨default, ⟨5, .ofSeconds 60⟩⟩
    (.createGrant ⟨"r", "s", "a"⟩) fun _ : Unit => .permission) [] {} _ := .start
  have looked := fresh.call (some ()) rfl _ rfl
  have locked := looked.call (some ()) rfl _ rfl
  have loaded := locked.step (some ()) rfl (.database .findGrants)
  have granted := loaded.step none rfl (.database (.createGrant ⟨"r", "s", "a"⟩))
  have dropped := granted.call none rfl _ rfl
  have filled := dropped.call (some ()) rfl _ rfl
  have released := filled.call (some ()) rfl (.ok true) rfl
  refine ⟨_, _, _, _, released, ⟨⟨_, _, rfl⟩, fun _ => rfl⟩, Tables.sound_empty, fun _ => rfl, fun i => ?_, rfl, ?_⟩
  · cases i with
    | none => rfl
    | some i => rfl
  · intro same
    have texts : (Permission.ofGrants []).toJson.text = (Permission.ofGrants [⟨"r", "s", "a"⟩]).toJson.text :=
      Bytes.ofText_injective same
    revert texts
    decide

end Accounts

end AccountCache
