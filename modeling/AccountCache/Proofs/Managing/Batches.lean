import AccountCache.Proofs.Managing.LastWrite

namespace AccountCache

open Cache (Item Manager MemoryStore Stored)
open Simulation (World)

namespace Cache

section Entries

variable {now : Instant} {e : Entry} {entries rest : List Entry} {before : String → Option Stored}

/-- Whether what is written at a moment ends at a moment of the clock. -/
def Entry.Ends (now : Instant) (e : Entry) : Prop := now.nanos + 1000000000 * e.seconds < Instant.limit

instance (now : Instant) (e : Entry) : Decidable (e.Ends now) := inferInstanceAs (Decidable (_ < _))

/-- Lifetimes too long for a span of time are cut to one that is too long
for the clock. -/
theorem Entry.ends_iff : e.Ends now ↔ now.nanos + (Duration.ofSeconds e.seconds).nanos < Instant.limit := by
  simp only [Ends, Duration.ofSeconds, Duration.nanos_ofNanos, Duration.maxNanos, Instant.limit]
  omega

theorem Entry.Ends.add? (ends : e.Ends now) :
    now.add? (.ofSeconds e.seconds) = some (now.after (.ofSeconds e.seconds)) :=
  if_pos (Entry.ends_iff.1 ends)

theorem Entry.add?_of_not_ends (endless : ¬e.Ends now) : now.add? (.ofSeconds e.seconds) = none :=
  if_neg (endless ∘ Entry.ends_iff.2)

/-- The entries before the first that would not end at a moment
of the clock. -/
def storable (now : Instant) (entries : List Entry) : List Entry := entries.takeWhile fun e => e.Ends now

theorem storable_cons (ends : e.Ends now) : storable now (e :: rest) = e :: storable now rest :=
  List.takeWhile_cons_of_pos (p := fun e : Entry => e.Ends now) (decide_eq_true ends)

theorem storable_cons_of_not_ends (endless : ¬e.Ends now) : storable now (e :: rest) = [] :=
  List.takeWhile_cons_of_neg (p := fun e : Entry => e.Ends now) (mt of_decide_eq_true endless)

theorem mem_of_mem_storable (member : e ∈ storable now entries) : e ∈ entries :=
  (List.takeWhile_prefix _).mem member

/-- What writes at a moment leave under a key: what the last of them for
that key wrote, if it is to live for some time, and what was there before if
none of them is for that key. -/
def deposited (now : Instant) (entries : List Entry) (before : String → Option Stored) (key : String) :
    Option Stored :=
  match entries.reverse.find? fun e => e.key = key with
  | some e => if e.seconds = 0 then none else some (MemoryStore.written now e)
  | none => before key

theorem deposited_cons : deposited now (e :: rest) before = deposited now rest (deposited now [e] before) := by
  funext key
  rw [deposited, List.reverse_cons, List.find?_append, deposited]
  cases rest.reverse.find? fun e => e.key = key with
  | none => rfl
  | some last => rfl

theorem deposited_of_ne {key : String} (away : ∀ e ∈ entries, e.key ≠ key) :
    deposited now entries before key = before key := by
  have missing : entries.reverse.find? (fun e => e.key = key) = none := by
    rw [List.find?_eq_none]
    exact fun e member same => away e (List.mem_reverse.1 member) (of_decide_eq_true same)
  rw [deposited, missing]

/-- How writes end, and what is live under each key then. This is all that
can be told of a store from outside at one moment. -/
structure Outcome where
  answer : Option (Except Error Unit)
  live : String → Option Stored

namespace Outcome

/-- The outcome of writes at a moment, one after the other: they break off
at the first that would not end at a moment of the clock, and what was
written before it stays. -/
def ofWrites (now : Instant) (entries : List Entry) (before : String → Option Stored) : Outcome where
  answer := if ∀ e ∈ entries, e.Ends now then some (.ok ()) else none
  live := deposited now (storable now entries) before

theorem ofWrites_cons (ends : e.Ends now) :
    ofWrites now (e :: rest) before = ofWrites now rest (deposited now [e] before) := by
  rw [ofWrites, storable_cons ends, deposited_cons, ofWrites]
  simp only [List.forall_mem_cons, ends, true_and]

theorem ofWrites_cons_of_not_ends (endless : ¬e.Ends now) : ofWrites now (e :: rest) before = ⟨none, before⟩ := by
  rw [ofWrites, storable_cons_of_not_ends endless, if_neg]
  · rfl
  · exact fun all => endless (all e (List.mem_cons_self ..))

/-- What a store shows at a moment after writes that end in some way. -/
def seen (now : Instant) (x : Option Unit × MemoryStore) : Outcome := ⟨x.1.map .ok, fun key => x.2.live? now key⟩

end Outcome

/-- Whether a batch is all or nothing: it is done, and all is as if its
entries had been written one after the other, or it is not, and under its
keys is what was there before. -/
def AllOrNothing (entries : List Entry) (before : String → Option Stored) (batch inTurn : Outcome) : Prop :=
  (batch.answer = some (.ok ()) ∧ batch = inTurn) ∨
    (batch.answer ≠ some (.ok ()) ∧ ∀ e ∈ entries, batch.live e.key = before e.key)

/-- What is true of every batch of entries that is written at a moment,
compared to the same entries written in turn. -/
structure BatchLaw (now : Instant) (entries : List Entry) (before : String → Option Stored)
    (batch inTurn : Outcome) : Prop where
  same : batch = inTurn
  /-- It is done if every entry ends at a moment of the clock, and breaks
  off otherwise. -/
  answer : batch.answer = if ∀ e ∈ entries, e.Ends now then some (.ok ()) else none
  /-- The entries before the first without such an end are written. -/
  leaves : batch.live = deposited now (storable now entries) before
  /-- It is all or nothing just if it is done or these entries write
  what was there. -/
  whole_iff : AllOrNothing entries before batch inTurn ↔
    (∀ e ∈ entries, e.Ends now) ∨
      ∀ e ∈ storable now entries, deposited now (storable now entries) before e.key = before e.key

theorem BatchLaw.of_eq {batch inTurn : Outcome} (wrote : batch = .ofWrites now entries before)
    (inTurnWrote : inTurn = .ofWrites now entries before) : BatchLaw now entries before batch inTurn := by
  subst wrote inTurnWrote
  refine ⟨rfl, rfl, rfl, ?_⟩
  by_cases all : ∀ e ∈ entries, e.Ends now
  · exact iff_of_true (.inl ⟨if_pos all, rfl⟩) (.inl all)
  · have broke : (Outcome.ofWrites now entries before).answer ≠ some (.ok ()) := by
      rw [Outcome.ofWrites, if_neg all]
      exact nofun
    rw [AllOrNothing, or_iff_right (broke ·.1), or_iff_right all, and_iff_right broke]
    refine ⟨fun same e member => same e (mem_of_mem_storable member), fun same e _ => ?_⟩
    -- What is under the keys of the later entries is as it was, unless an entry that was written has the same key.
    by_cases early : ∃ x ∈ storable now entries, x.key = e.key
    · obtain ⟨x, member, own⟩ := early
      exact own ▸ same x member
    · exact deposited_of_ne fun x member own => early ⟨x, member, own⟩

end Entries

namespace MemoryStore

variable (s : MemoryStore) {now : Instant} {e : Entry}

theorem live_maybeSweep : ((s.maybeSweep now).live? now ·) = (s.live? now ·) := funext fun _ => s.live?_maybeSweep

theorem live_put_written :
    ((s.put e.key (written now e)).live? now ·) = deposited now [e] (s.live? now ·) := by
  funext key
  rw [live?_put, deposited, List.reverse_singleton]
  by_cases own : e.key = key
  · simp only [List.find?_singleton, own, decide_true, if_true]
    by_cases brief : e.seconds = 0
    · have ended : (written now e).isExpired now = true := by
        rw [written, brief]
        exact decide_eq_true (Instant.le_refl now)
      rw [if_pos ended, if_pos brief]
    · rw [isExpired_written brief, if_neg brief]
      rfl
  · simp only [List.find?_singleton, own, decide_false, if_false]
    rfl

theorem insert?_of_ends (ends : e.Ends now) : s.insert? now e = some (s.put e.key (written now e)) := by
  rw [insert?, ends.add?, Option.map_some, written]

theorem insert?_of_not_ends (endless : ¬e.Ends now) : s.insert? now e = none := by
  rw [insert?, Entry.add?_of_not_ends endless, Option.map_none]

theorem set_of_ends (ends : e.Ends now) :
    s.set now e = (some (), (s.maybeSweep now).put e.key (written now e)) := by
  simp only [set, insert?_of_ends _ ends]

theorem set_of_not_ends (endless : ¬e.Ends now) : s.set now e = (none, s.maybeSweep now) := by
  simp only [set, insert?_of_not_ends _ endless]

def setEach (s : MemoryStore) (now : Instant) : List Entry → Option Unit × MemoryStore
  | [] => (some (), s)
  | e :: rest =>
    match s.set now e with
    | (some _, s) => s.setEach now rest
    | (none, s) => (none, s)

theorem seen_insertAll (entries : List Entry) :
    .seen now (s.insertAll now entries) = Outcome.ofWrites now entries (s.live? now ·) := by
  induction entries generalizing s with
  | nil => rfl
  | cons e rest ih =>
    by_cases ends : e.Ends now
    · rw [insertAll, s.insert?_of_ends ends, Outcome.ofWrites_cons ends, ← live_put_written]
      exact ih _
    · rw [insertAll, s.insert?_of_not_ends ends, Outcome.ofWrites_cons_of_not_ends ends]
      rfl

theorem seen_setMany (entries : List Entry) :
    .seen now (s.setMany now entries) = Outcome.ofWrites now entries (s.live? now ·) := by
  rw [setMany, seen_insertAll, live_maybeSweep]

theorem seen_setEach (entries : List Entry) :
    .seen now (s.setEach now entries) = Outcome.ofWrites now entries (s.live? now ·) := by
  induction entries generalizing s with
  | nil => rfl
  | cons e rest ih =>
    by_cases ends : e.Ends now
    · rw [setEach, s.set_of_ends ends, Outcome.ofWrites_cons ends, ← live_maybeSweep, ← live_put_written]
      exact ih _
    · rw [setEach, s.set_of_not_ends ends, Outcome.ofWrites_cons_of_not_ends ends, ← live_maybeSweep]
      rfl

end MemoryStore

def Manager.storeEach (m : Manager) : List Item → Action (Except Error Unit)
  | [] => pure (.ok ())
  | item :: rest => do
    match ← m.store item with
    | .ok _ => m.storeEach rest
    | .error e => return .error e

/-- The entries that a manager writes for items: none if it is disabled. -/
def Manager.batch (m : Manager) (items : List Item) : List Entry :=
  if m.policy.disabled then [] else items.map m.entry

end Cache

namespace Simulation.World

open Cache (Outcome deposited)

variable {w : World} {m : Manager} {α β : Type}

theorem carry_bind (p : Action α) (f : α → Action β) :
    w.carry (p.bind f) =
      match w.carry p with
      | (some value, w') => w'.carry (f value)
      | (none, w') => (none, w') := by
  induction p generalizing w with
  | done value => rfl
  | ask e next ih =>
    rw [Program.bind_ask, carry, carry]
    cases w.answer none e with
    | mk answer w' =>
      cases answer with
      | none => rfl
      | some answer => exact ih answer

def outcome (w : World) (p : Action (Except Cache.Error Unit)) : Outcome := ⟨(w.carry p).1, (w.carry p).2.cached?⟩

theorem Reliable.serveCache_values (reliable : w.Reliable) {r : Cache.Request} (kind : r.isAboutLocks = false) :
    ∃ values : MemoryStore, w.cached? = (values.live? w.clock ·) ∧
      (w.serveCache r).1 = (values.serve w.clock w.token r).1 ∧
      (w.serveCache r).2.cached? = ((values.serve w.clock w.token r).2.live? w.clock ·) := by
  obtain ⟨⟨values, locks, memory⟩, faultless⟩ := reliable
  refine ⟨values, funext fun key => ?_, ?_⟩
  · rw [cached?, memory]
    rfl
  · rw [serveCache, faultless r, memory]
    cases locks with
    | none => exact ⟨rfl, rfl⟩
    | some locks =>
      simp only [Backend.serve, kind]
      exact ⟨rfl, rfl⟩

theorem carry_action (w : World) (r : Cache.Request) : w.carry (Action.cache r) = w.serveCache r := by
  have served : w.answer none (.cache r) = w.serveCache r := rfl
  show w.carry (.ask (.cache r) .done) = _
  rw [carry, ← served]
  cases w.answer none (.cache r) with
  | mk answer w' =>
    cases answer with
    | none => rfl
    | some answer => rfl

theorem Reliable.outcome_batch (reliable : w.Reliable) (entries : List Cache.Entry) :
    w.outcome (Action.cache (.setMany entries)) = .ofWrites w.clock entries w.cached? := by
  obtain ⟨values, before, answer, after⟩ := reliable.serveCache_values (r := .setMany entries) rfl
  rw [outcome, carry_action, answer, after, before]
  exact values.seen_setMany entries

/-- A manager stores an item, or breaks off and leaves all as it was. There
is nothing between the two, since an item is one entry. -/
theorem Reliable.carry_store (reliable : w.Reliable) (enabled : m.policy.disabled = false) (item : Item) :
    ∃ w' : World, w'.Reliable ∧ w'.clock = w.clock ∧
      if (m.entry item).Ends w.clock then
        w.carry (m.store item) = (some (.ok ()), w') ∧ w'.cached? = deposited w.clock [m.entry item] w.cached?
      else w.carry (m.store item) = (none, w') ∧ w'.cached? = w.cached? := by
  obtain ⟨values, before, answer, after⟩ := reliable.serveCache_values (r := .set (m.entry item)) rfl
  refine ⟨(w.serveCache (.set (m.entry item))).2, reliable.served _, w.clock_serveCache _, ?_⟩
  rw [Manager.store, if_neg (Bool.eq_false_iff.1 enabled), carry_action, after, before]
  split
  · next ends =>
    rw [MemoryStore.serve, values.set_of_ends ends] at answer ⊢
    exact ⟨Prod.ext answer rfl, (MemoryStore.live_put_written _).trans (congrArg _ values.live_maybeSweep)⟩
  · next endless =>
    rw [MemoryStore.serve, values.set_of_not_ends endless] at answer ⊢
    exact ⟨Prod.ext answer rfl, values.live_maybeSweep⟩

theorem Reliable.outcome_storeMany (reliable : w.Reliable) (m : Manager) (items : List Item) :
    w.outcome (m.storeMany items) = .ofWrites w.clock (m.batch items) w.cached? := by
  rw [Manager.storeMany, Manager.batch]
  cases m.policy.disabled with
  | true => rfl
  | false =>
    cases items with
    | nil => rfl
    | cons item rest => exact reliable.outcome_batch _

theorem outcome_storeEach_of_disabled (disabled : m.policy.disabled = true) (items : List Item) :
    w.outcome (m.storeEach items) = ⟨some (.ok ()), w.cached?⟩ := by
  induction items with
  | nil => rfl
  | cons item rest ih =>
    rw [Manager.storeEach, Manager.store, if_pos disabled]
    exact ih

theorem Reliable.outcome_storeEach (reliable : w.Reliable) (m : Manager) (items : List Item) :
    w.outcome (m.storeEach items) = .ofWrites w.clock (m.batch items) w.cached? := by
  cases state : m.policy.disabled with
  | true =>
    rw [outcome_storeEach_of_disabled state, Manager.batch, if_pos state]
    rfl
  | false =>
    rw [Manager.batch, if_neg (Bool.eq_false_iff.1 state)]
    induction items generalizing w with
    | nil => rfl
    | cons item rest ih =>
      obtain ⟨w', reliable', clock, stored⟩ := reliable.carry_store state item
      rw [outcome, Manager.storeEach, Program.bind_eq, carry_bind, List.map_cons]
      by_cases ends : (m.entry item).Ends w.clock
      · rw [if_pos ends] at stored
        rw [stored.1, Outcome.ofWrites_cons ends, ← stored.2, ← clock]
        exact ih reliable'
      · rw [if_neg ends] at stored
        rw [stored.1, Outcome.ofWrites_cons_of_not_ends ends, ← stored.2]

end Simulation.World

namespace Cache

/-- How a batch ends, whatever its keys, values and lifetimes are, be it
written to a store in memory in any state or be its items stored by a
manager over one. It is what its entries come to when they are written one
after the other at that moment, and so the last of several entries for one
key counts. If one of them would not end at a moment of the clock, the batch
breaks off there, and those before it stay written. So a batch is all or
nothing just if each of its entries ends at a moment of the clock, or if
those before the first that does not write what is there already. -/
theorem batch_lawful (s : MemoryStore) (now : Instant) (entries : List Entry) (m : Manager) {w : World}
    (reliable : w.Reliable) (items : List Item) :
    BatchLaw now entries (s.live? now ·) (.seen now (s.setMany now entries)) (.seen now (s.setEach now entries)) ∧
      BatchLaw w.clock (m.batch items) w.cached? (w.outcome (m.storeMany items)) (w.outcome (m.storeEach items)) :=
  ⟨.of_eq (s.seen_setMany entries) (s.seen_setEach entries),
    .of_eq (reliable.outcome_storeMany m items) (reliable.outcome_storeEach m items)⟩

def minute : Item := ⟨"a", .ofText "v", .ofSeconds 60⟩

def eternal : Item := ⟨"b", .ofText "v", .ofSeconds 9223372036854775808⟩

theorem reliable_default : ({} : World).Reliable := ⟨⟨_, _, rfl⟩, fun _ => rfl⟩

/-- A batch that breaks off at its first entry leaves all as it was. -/
theorem batch_lawful_at_first : (({} : World).outcome ((default : Manager).storeMany [eternal, minute])).answer = none ∧
    AllOrNothing ((default : Manager).batch [eternal, minute]) ({} : World).cached?
      (({} : World).outcome ((default : Manager).storeMany [eternal, minute]))
      (({} : World).outcome ((default : Manager).storeEach [eternal, minute])) := by
  have law := (batch_lawful (.new .start) .start [] default reliable_default [eternal, minute]).2
  exact ⟨law.answer.trans (if_neg (by decide)), law.whole_iff.2 (.inr (by decide))⟩

def halves : List Entry := (default : Manager).batch [minute, eternal]

theorem BatchLaw.not_whole {before : String → Option Stored} {batch inTurn : Outcome} (missing : before "a" = none)
    (law : BatchLaw .start halves before batch inTurn) : ¬AllOrNothing halves before batch inTurn := by
  rw [law.whole_iff]
  rintro (all | same)
  · exact absurd all (by decide)
  · have own := same _ (List.mem_cons_self ..)
    exact absurd (own.trans missing) nofun

/-- If the second of two entries cannot be written, the first stays behind,
in a store as well as with a manager. -/
theorem half_a_batch :
    ¬AllOrNothing halves ((MemoryStore.new .start).live? .start ·)
      (.seen .start ((MemoryStore.new .start).setMany .start halves))
      (.seen .start ((MemoryStore.new .start).setEach .start halves)) ∧
    ¬AllOrNothing halves ({} : World).cached? (({} : World).outcome ((default : Manager).storeMany [minute, eternal]))
      (({} : World).outcome ((default : Manager).storeEach [minute, eternal])) :=
  ⟨BatchLaw.not_whole rfl (.of_eq (MemoryStore.seen_setMany _ halves) (MemoryStore.seen_setEach _ halves)),
    BatchLaw.not_whole rfl (.of_eq (reliable_default.outcome_storeMany _ _) (reliable_default.outcome_storeEach _ _))⟩

end Cache

end AccountCache
