import AccountCache.Proofs.Managing.Uses

namespace AccountCache

open Cache (Cached Lifetime Manager MemoryStore Stored Use horizon nilBytes)
open Simulation (Record Surroundings Unsteady World)

namespace Cache

def Cached.stored : Cached → Bytes
  | value bytes => bytes
  | absent => nilBytes

/-- What a write leaves under a key: what is read there, and for how many
seconds. Nothing is left where a key was dropped. -/
structure Deposit where
  value : Cached
  seconds : Nat
  readable : .ofBytes value.stored = value
  positive : seconds ≠ 0

namespace Deposit

variable {m : Manager} {d : Deposit} {left : Option Deposit} {since now : Instant}

/-- An item that is not mistaken for the mark of a missing row. -/
def ofItem (m : Manager) (item : Item) (worthy : item.value ≠ nilBytes) : Deposit :=
  ⟨.value item.value, m.seconds item, if_neg worthy, m.seconds_ne_zero item⟩

def mark (m : Manager) : Deposit :=
  ⟨.absent, m.policy.nilTtl.seconds, if_pos rfl, (Policy.problem?_eq_none m.usable).2.1⟩

def deadline (d : Deposit) (since : Instant) : Instant := since.after (.ofSeconds d.seconds)

def kept (d : Deposit) (since : Instant) : Stored := ⟨d.value.stored, some (d.deadline since)⟩

/-- The time that remains of what was left at a moment, in seconds, a half
of one rounded up. -/
def lifetime (d : Deposit) (since now : Instant) : Lifetime :=
  .expires (.ofSeconds ((((d.deadline since).since now).nanos + 500000000) / 1000000000))

/-- What is still there of what was left at a moment. -/
def remains (left : Option Deposit) (since now : Instant) : Option Deposit :=
  left.filter fun d => now < d.deadline since

theorem lt_deadline (d : Deposit) (since : Instant) : since < d.deadline since := by
  have positive := d.positive
  simp only [deadline, Instant.lt_def, Instant.after, Duration.ofSeconds, Duration.nanos_ofNanos, Duration.maxNanos]
  omega

theorem remains_self (left : Option Deposit) (since : Instant) : remains left since since = left := by
  cases left with
  | none => rfl
  | some d => exact Option.filter_some.trans (if_pos (decide_eq_true (d.lt_deadline since)))

theorem remains_of_le {later : Instant} (order : now ≤ later) :
    (remains left since now).filter (fun d => later < d.deadline since) = remains left since later := by
  rw [remains, remains, Option.filter_filter]
  congr 1
  funext d
  rw [← Bool.decide_and, decide_eq_decide]
  exact ⟨And.right, fun early => ⟨Instant.lt_of_le_of_lt order early, early⟩⟩

theorem not_isExpired_kept (d : Deposit) (since now : Instant) :
    (!(d.kept since).isExpired now) = decide (now < d.deadline since) := by
  rw [kept, Stored.isExpired, Option.any_some, Bool.not_eq_eq_eq_not, ← decide_not, decide_eq_decide]
  exact Instant.not_lt.symm

/-- The seconds that a store tells are those that remain, as long as they
are few enough for the count of milliseconds. -/
theorem ofSeconds_roundMillis (bound : d.seconds ≤ 9000000000000000) (order : since ≤ now) :
    Lifetime.ofSeconds (MemoryStore.roundMillis ((d.deadline since).since now).millis) = d.lifetime since now := by
  have small : ((d.deadline since).since now).millis ≤ 9223372036854775307 := by
    simp only [deadline, Instant.le_def, Instant.after, Instant.since, Duration.ofSeconds, Duration.millis,
      Duration.nanos_ofNanos, Duration.maxNanos] at order ⊢
    omega
  rw [MemoryStore.roundMillis_of_le small, Lifetime.ofSeconds, if_neg (by omega), if_neg (by omega), lifetime,
    Int.toNat_natCast, Duration.millis]
  have whole : ((d.deadline since).since now).nanos / 1000000 + 500 =
      (((d.deadline since).since now).nanos + 500000000) / 1000000 := by omega
  rw [whole, Nat.div_div_eq_div_mul]

end Deposit

/-- What an operation leaves under a key that writes or drops it. Of several
items for one key the last counts. -/
inductive Use.Leaves (m : Manager) (key : String) : {α : Type} → Use α → Option Deposit → Prop
  | store {item : Item} (worthy : item.value ≠ nilBytes) : item.key = key →
    Leaves m key (.store item) (some (.ofItem m item worthy))
  | storeMany {before after : List Item} {item : Item} (worthy : item.value ≠ nilBytes) : item.key = key →
    (∀ x ∈ after, x.key ≠ key) →
    Leaves m key (.storeMany (before ++ item :: after)) (some (.ofItem m item worthy))
  | storeAbsent : Leaves m key (.storeAbsent key) (some (.mark m))
  | delete {keys : List String} : key ∈ keys → Leaves m key (.delete keys) none

theorem Use.Leaves.seconds_le {m : Manager} {key : String} {α : Type} {use : Use α} {left : Option Deposit}
    (leaves : use.Leaves m key left) (usual : m.policy.defaultTtl ≤ horizon) (none : m.policy.nilTtl ≤ horizon)
    (own : ∀ d ∈ use.lifetimes, d ≤ horizon) : ∀ d ∈ left, d.seconds ≤ 9000000000000000 := by
  cases leaves with
  | @store item =>
    rintro _ ⟨⟩
    exact Use.seconds_le usual (own _ (List.mem_singleton_self _))
  | @storeMany before after item =>
    rintro _ ⟨⟩
    have member : item ∈ before ++ item :: after := List.mem_append_right _ (List.mem_cons_self ..)
    exact Use.seconds_le usual (own _ (List.mem_map_of_mem member))
  | storeAbsent =>
    rintro _ ⟨⟩
    exact Duration.seconds_le_of_le_horizon none
  | delete => exact fun _ => nofun

/-- Unless the manager is switched off, what is to leave something under a
key is one request. -/
theorem Use.Leaves.exists_request {m : Manager} {key : String} {α : Type} {use : Use α} {left : Option Deposit}
    (leaves : use.Leaves m key left) (enabled : m.policy.disabled = false) :
    ∃ r next, use.perform m = .ask (.cache r) next := by
  cases leaves with
  | store =>
    rw [perform, Manager.store, if_neg (Bool.eq_false_iff.1 enabled)]
    exact ⟨_, _, rfl⟩
  | @storeMany before after item =>
    have some : (before ++ item :: after).isEmpty = false := List.isEmpty_eq_false_iff.2 (by simp)
    rw [perform, Manager.storeMany, enabled, some]
    exact ⟨_, _, rfl⟩
  | storeAbsent =>
    rw [perform, Manager.storeAbsent, Manager.store, if_neg (Bool.eq_false_iff.1 enabled)]
    exact ⟨_, _, rfl⟩
  | @delete keys named =>
    have some : keys.isEmpty = false := List.isEmpty_eq_false_iff.2 (List.ne_nil_of_mem named)
    rw [perform, Manager.delete, enabled, some]
    exact ⟨_, _, rfl⟩

end Cache

open Cache (Deposit)

namespace Simulation.World

variable {w w' : World} {around : Surroundings} {m : Manager} {key : String} {α : Type} {left : Option Deposit}
  {since : Instant}

/-- What an action yields that is carried out at one moment, unless it
breaks off, and the world afterwards. -/
def carry (w : World) : Action α → Option α × World
  | .done value => (some value, w)
  | .ask e next =>
    match w.answer none e with
    | (some answer, w) => w.carry (next answer)
    | (none, w) => (none, w)

theorem carry_cache {r : Cache.Request} {answer : (Effect.cache r).Answer}
    {next : (Effect.cache r).Answer → Action α} (answered : (w.serveCache r).1 = some answer) :
    w.carry (.ask (.cache r) next) = (w.serveCache r).2.carry (next answer) := by
  have split : w.answer none (.cache r) = (some answer, (w.serveCache r).2) := Prod.ext answered rfl
  rw [carry, split]

/-- Whether there is under a key what remains of what was left there
at a moment. -/
def Holds (w : World) (key : String) (left : Option Deposit) (since : Instant) : Prop :=
  w.cached? key = (Deposit.remains left since w.clock).map (·.kept since)

theorem Reliable.cached?_advanceTo (reliable : w.Reliable) (later : Instant) :
    (w.advanceTo later).cached? key = (w.cached? key).filter fun e => !e.isExpired (w.advanceTo later).clock := by
  obtain ⟨values, locks, memory⟩ := reliable.memory
  have order : w.clock ≤ (w.advanceTo later).clock := Instant.le_max_left ..
  have now : (w.advanceTo later).cached? key = values.live? (w.advanceTo later).clock key := by
    simp only [cached?, World.advanceTo, memory]
    rfl
  rw [now, values.live?_of_le order, cached?, memory]
  rfl

namespace Holds

theorem advanceTo (holds : w.Holds key left since) (reliable : w.Reliable) (later : Instant) :
    (w.advanceTo later).Holds key left since := by
  have order : w.clock ≤ (w.advanceTo later).clock := Instant.le_max_left ..
  rw [Holds, reliable.cached?_advanceTo, holds, Option.filter_map, ← Deposit.remains_of_le order]
  congr 2
  funext d
  exact d.not_isExpired_kept since _

theorem of_cached?_eq (holds : w.Holds key left since) (same : w'.cached? key = w.cached? key)
    (clock : w'.clock = w.clock) : w'.Holds key left since := by
  rw [Holds, same, clock]
  exact holds

theorem get (holds : w.Holds key left since) (reliable : w.Reliable) (enabled : m.policy.disabled = false) :
    (w.carry (m.get key)).1 = some ((Deposit.remains left since w.clock).map (·.value)) := by
  obtain ⟨answer, w', answers⟩ := reliable.exists_answer (r := .get key) fun _ => nofun
  obtain ⟨_, rfl, _⟩ := reliable.get answers
  cases answers with
  | cache answered =>
    have read : (w.carry (m.get key)).1 = some (((w.cached? key).map (·.value)).map .ofBytes) := by
      rw [Manager.get, if_neg (Bool.eq_false_iff.1 enabled)]
      exact congrArg Prod.fst (carry_cache answered)
    rw [read, holds, Option.map_map, Option.map_map]
    congr 2
    funext d
    exact d.readable

theorem lifetime (holds : w.Holds key left since) (reliable : w.Reliable) (enabled : m.policy.disabled = false)
    (order : since ≤ w.clock) (short : ∀ d ∈ left, d.seconds ≤ 9000000000000000) :
    (w.carry (m.lifetime key)).1 =
      some (.ok (((Deposit.remains left since w.clock).map (·.lifetime since w.clock)).getD .missing)) := by
  obtain ⟨answer, w', answers⟩ := reliable.exists_answer (r := .ttl key) fun _ => nofun
  obtain ⟨_, _, values, view, told, _⟩ := reliable.answers_values answers rfl
  obtain rfl := Option.some.inj told
  cases answers with
  | cache answered =>
    have read : (w.carry (m.lifetime key)).1 = some (.ok (.ofSeconds (values.ttl w.clock key))) := by
      rw [Manager.lifetime, if_neg (Bool.eq_false_iff.1 enabled)]
      exact congrArg Prod.fst (carry_cache answered)
    have live : values.live? w.clock key = (Deposit.remains left since w.clock).map (·.kept since) :=
      (view key).symm.trans holds
    rw [read]
    cases there : Deposit.remains left since w.clock with
    | none =>
      rw [there] at live
      rw [MemoryStore.ttl, live]
      rfl
    | some d =>
      rw [there] at live
      obtain ⟨rfl, _⟩ := Option.filter_eq_some_iff.1 there
      rw [MemoryStore.ttl_of_live? live rfl, d.ofSeconds_roundMillis (short d rfl) order]
      rfl

end Holds

theorem Meets.answered (steady : ∀ r, ¬around.refuses r) {r : Cache.Request} {answer : (Effect.cache r).Answer}
    (meets : w.Meets around (.cache r) answer w') : ∃ number, (w.numbered number).Answers (.cache r) answer w' := by
  cases meets with
  | cache number answers => exact ⟨number, answers⟩
  | refused _ refuses => exact absurd refuses (steady _)
  | quiet quiet => cases quiet

/-- A write leaves what it is to leave. -/
theorem Reliable.holds_of_leaves {use : Use α} (reliable : w.Reliable) (steady : ∀ r, ¬around.refuses r)
    (leaves : use.Leaves m key left) {e : Effect} {answer : e.Answer} (may : use.MayAsk m e)
    (meets : w.Meets around e answer w') : w'.Holds key left w.clock := by
  rw [Holds, meets.clock_eq, Deposit.remains_self]
  cases leaves with
  | store worthy own =>
    subst own
    cases may
    obtain ⟨number, answers⟩ := meets.answered steady
    obtain ⟨_, _, _, found, _⟩ := (reliable.numbered number).set answers (m.seconds_ne_zero _)
    exact found
  | @storeMany before after item worthy own last =>
    subst own
    cases may
    obtain ⟨number, answers⟩ := meets.answered steady
    obtain ⟨_, _, values, _, told, view⟩ := (reliable.numbered number).answers_values answers rfl
    simp only [MemoryStore.serve, MemoryStore.setMany] at told view
    obtain ⟨_, wrote, _⟩ := Option.map_eq_some_iff.1 told
    rw [List.map_append, List.map_cons] at wrote view
    have others : ∀ x ∈ after.map m.entry, x.key ≠ (m.entry item).key := List.forall_mem_map.2 last
    exact (view item.key).trans (MemoryStore.live?_insertAll_of_last (m.seconds_ne_zero item) others wrote)
  | storeAbsent =>
    cases may
    obtain ⟨number, answers⟩ := meets.answered steady
    obtain ⟨_, _, _, found, _⟩ := (reliable.numbered number).set answers (m.seconds_ne_zero _)
    have own : m.seconds ⟨key, nilBytes, m.policy.nilTtl⟩ = m.policy.nilTtl.seconds :=
      if_neg (Deposit.mark m).positive
    rw [Manager.entry, own] at found
    exact found
  | delete named =>
    cases may
    obtain ⟨number, answers⟩ := meets.answered steady
    exact ((reliable.numbered number).delete answers key).trans (if_pos named)

/-- What remains under a key is not changed by what keeps it. -/
theorem Holds.meets (holds : w.Holds key left since) (reliable : w.Reliable) {e : Effect} {answer : e.Answer}
    (keeps : ∀ r, e = .cache r → r.Keeps key) (meets : w.Meets around e answer w') : w'.Holds key left since := by
  have clock := meets.clock_eq
  cases meets with
  | cache number answers =>
    cases answers with
    | cache => exact holds.of_cached?_eq ((reliable.numbered number).cached?_of_keeps (keeps _ rfl)) clock
  | refused | database | wallClock | quiet => exact holds

end Simulation.World

namespace Cache

open Simulation (World)

/-- Who is done with an operation that leaves something under a key made its
request on the way. -/
theorem Use.Leaves.mem_log {m : Manager} (enabled : m.policy.disabled = false) {ι : Type} [DecidableEq ι]
    {around : Surroundings} {world w : World} {uses : ι → Σ α, Use α} {log : List (Record ι)} {ps : ι → Action Unit}
    (run : Unsteady around world (fun i => ((uses i).2.perform m).bind fun _ => .done ()) log w ps) {i : ι}
    {key : String} {left : Option Deposit} (leaves : (uses i).2.Leaves m key left) (finished : ps i = .done ()) :
    ∃ x ∈ log, x.client = i := by
  rcases run.course i with course | broken
  · rw [finished] at course
    cases talk : Simulation.heard i log with
    | nil =>
      -- Nothing was asked, so that there was nothing to be done.
      obtain ⟨r, next, asks⟩ := leaves.exists_request enabled
      rw [talk, asks] at course
      cases course
    | cons x rest =>
      obtain ⟨y, member, own, _⟩ := Simulation.exists_of_mem_heard (talk ▸ List.mem_cons_self : x ∈ _)
      exact ⟨y, member, own⟩
  · rw [finished] at broken
    cases broken

/-- Whatever is done with a manager over stores in memory, in whatever order
and at whatever times the requests of the operations come, each operation
being a client, since it does not matter who makes it: who is done with a
write of a key, or with dropping it, has made the request, and from the last
such request on, if nothing counts the key up or gives it a new lifetime,
what is read there is what was written, byte for byte, until as many whole
seconds have passed as the item is to live, and nothing from then on. A
manager tells the time that remains to the nearest second, and that the key
is missing afterwards. So it is whatever else is read, waited for, locked,
taken over or given back, and even if clients break off because the clock
has no moment for the end of a lock. -/
theorem last_write_stands (m : Manager) (enabled : m.policy.disabled = false) (usual : m.policy.defaultTtl ≤ horizon)
    (none : m.policy.nilTtl ≤ horizon) {around : Surroundings} (steady : ∀ r, ¬around.refuses r) {world w : World}
    (reliable : world.Reliable) {ι : Type} [DecidableEq ι] (uses : ι → Σ α, Use α)
    (own : ∀ i, ∀ d ∈ (uses i).2.lifetimes, d ≤ horizon) {log : List (Record ι)} {ps : ι → Action Unit}
    (run : Unsteady around world (fun i => ((uses i).2.perform m).bind fun _ => .done ()) log w ps)
    (roomy : w.clock.Roomy) {key : String} (plain : ¬Key.IsLock key) :
    (∀ i left, (uses i).2.Leaves m key left → ps i = .done () → ∃ x ∈ log, x.client = i) ∧
    ∀ {later earlier x left}, log = later ++ x :: earlier → (uses x.client).2.Leaves m key left →
      (∀ y ∈ later, ¬(uses y.client).2.Touches key) →
      (w.carry (m.get key)).1 = some ((Deposit.remains left x.moment w.clock).map (·.value)) ∧
        (w.carry (m.lifetime key)).1 =
          some (.ok (((Deposit.remains left x.moment w.clock).map (·.lifetime x.moment w.clock)).getD .missing)) := by
  refine ⟨fun i left leaves finished => leaves.mem_log enabled run finished,
    fun {later earlier x left} told leaves last => ?_⟩
  have minds : ∀ i, (((uses i).2.perform m).bind fun _ => .done ()).Minds (fun _ => True) ((uses i).2.MayAsk m) :=
    fun i => ((uses i).2.asks m).bind fun _ => .done _
  have may : ∀ y ∈ log, (uses y.client).2.MayAsk m y.effect := (run.asks minds).2
  rw [told] at may
  obtain ⟨mayAfter, mayThen, _⟩ := List.forall_mem_append.1 may |>.imp_right List.forall_mem_cons.1
  have holds : w.Holds key left x.moment ∧ x.moment ≤ w.clock ∧ w.Reliable := by
    refine run.onward minds reliable roomy told (fun v => v.Holds key left x.moment ∧ x.moment ≤ v.clock ∧ v.Reliable)
      ?_ ?_ ?_ ?_
    · intro v v' steadfast _ now meets
      rw [now, meets.clock_eq]
      exact ⟨steadfast.holds_of_leaves steady leaves mayThen meets, Instant.le_refl _, steadfast.meets meets⟩
    · rintro v t ⟨holds, order, steadfast⟩
      exact ⟨holds.advanceTo steadfast t, Instant.le_trans order (Instant.le_max_left ..), steadfast.advanceTo t⟩
    · rintro v v' y member _ ⟨holds, order, steadfast⟩ meets
      have keeps : ∀ r, y.effect = .cache r → r.Keeps key := fun r asked =>
        Use.keeps_of_mayAsk plain (last y member) (asked ▸ mayAfter y member)
      rw [meets.clock_eq]
      exact ⟨holds.meets steadfast keeps meets, order, steadfast.meets meets⟩
    · rintro v r i number asked _ ample broke ⟨holds, order, steadfast⟩
      have clock : ((v.numbered number).serveCache r).2.clock = v.clock := World.clock_serveCache ..
      have steadfast' := steadfast.numbered number
      rcases Use.bounded_of_mayAsk usual none (own i) asked with looks | bounded
      · have same := steadfast'.cached?_of_keeps (looks.keeps plain)
        rw [clock]
        exact ⟨holds.of_cached?_eq same clock, order, steadfast'.served r⟩
      · -- Lifetimes up to the horizon end before the clock does, so that there was an answer.
        obtain ⟨answer, _, answers⟩ := steadfast'.exists_answer (bounded.ends ample)
        cases answers with
        | cache answered =>
          rw [broke] at answered
          cases answered
  obtain ⟨holds, order, steadfast⟩ := holds
  exact ⟨holds.get steadfast enabled, holds.lifetime steadfast enabled order
    (leaves.seconds_le usual none (own x.client))⟩

/-- Operations of every sort that leaves something under a key, each
with a key of its own but for the last two, and one that takes the lock
of the first key. -/
def writesAndLock : Fin 6 → Σ α, Use α
  | 0 => ⟨_, .acquireLock "k"⟩
  | 1 => ⟨_, .storeMany [⟨"k", .ofText "v", .zero⟩, ⟨"k", .ofText "w", .ofSeconds 3⟩]⟩
  | 2 => ⟨_, .store ⟨"l", .ofText "u", .zero⟩⟩
  | 3 => ⟨_, .storeAbsent "m"⟩
  | 4 => ⟨_, .store ⟨"n", .ofText "u", .zero⟩⟩
  | 5 => ⟨_, .delete ["n"]⟩

/-- Two seconds after the writes and with the lock of the first key taken,
of two items for it the last is there for one more second; an item without a
lifetime is there for what is left of the usual one, and so is the mark of a
missing row; and what was dropped after it was stored is not there. Who
dropped it made the request. -/
theorem last_writes_stand : ∃ (log : List (Record (Fin 6))) (w : World) (ps : Fin 6 → Action Unit),
    Unsteady ⟨Database.Tables.Permits, fun _ => False⟩ {}
      (fun i => ((writesAndLock i).2.perform default).bind fun _ => .done ()) log w ps ∧
    w.clock = ⟨2000000000⟩ ∧
    ((w.carry ((default : Manager).get "k")).1 = some (some (.value (.ofText "w"))) ∧
      (w.carry ((default : Manager).lifetime "k")).1 = some (.ok (.expires (.ofSeconds 1)))) ∧
    ((w.carry ((default : Manager).get "l")).1 = some (some (.value (.ofText "u"))) ∧
      (w.carry ((default : Manager).lifetime "l")).1 = some (.ok (.expires (.ofSeconds 8)))) ∧
    ((w.carry ((default : Manager).get "m")).1 = some (some .absent) ∧
      (w.carry ((default : Manager).lifetime "m")).1 = some (.ok (.expires (.ofSeconds 298)))) ∧
    ((w.carry ((default : Manager).get "n")).1 = some none ∧
      (w.carry ((default : Manager).lifetime "n")).1 = some (.ok .missing)) ∧
    ∃ x ∈ log, x.client = 5 := by
  have batched := (@Unsteady.start (Fin 6) Unit _ ⟨Database.Tables.Permits, fun _ => False⟩ {}
    fun i => ((writesAndLock i).2.perform default).bind fun _ => .done ()).step 1 rfl (.of_serve 0 (.ok ()) rfl)
  have stored := batched.step 2 rfl (.of_serve 0 (.ok ()) rfl)
  have marked := stored.step 3 rfl (.of_serve 0 (.ok ()) rfl)
  have dropped := (marked.step 4 rfl (.of_serve 0 (.ok ()) rfl)).step 5 rfl (.of_serve 0 (.ok ()) rfl)
  have locked := (dropped.wait ⟨2000000000⟩).step 0 rfl (.of_serve 0 (.ok (some ⟨"k", _, _⟩)) rfl)
  have usual : ∀ i, ∀ d ∈ (writesAndLock i).2.lifetimes, d ≤ horizon := by decide
  have stands {key : String} (plain : ¬Key.IsLock key) := last_write_stands default rfl (by decide) (by decide)
    (fun _ => id) ⟨⟨_, _, rfl⟩, fun _ => rfl⟩ writesAndLock usual locked (by decide) plain
  have batch : (writesAndLock 1).2.Leaves default "k"
      (some (.ofItem default ⟨"k", .ofText "w", .ofSeconds 3⟩ (by decide))) :=
    @Use.Leaves.storeMany default "k" [⟨"k", .ofText "v", .zero⟩] [] _ _ rfl (List.forall_mem_nil _)
  have item : (writesAndLock 2).2.Leaves default "l"
      (some (.ofItem default ⟨"l", .ofText "u", .zero⟩ (by decide))) := .store _ rfl
  have mark : (writesAndLock 3).2.Leaves default "m" (some (.mark default)) := .storeAbsent
  have nothing : (writesAndLock 5).2.Leaves default "n" none := .delete (List.mem_singleton_self _)
  refine ⟨_, _, _, locked, rfl, ?_, ?_, ?_, ?_, (stands (by decide)).1 5 _ nothing rfl⟩
  · exact (stands (by decide)).2 (List.take_append_drop 5 _).symm batch (by decide)
  · exact (stands (by decide)).2 (List.take_append_drop 4 _).symm item (by decide)
  · exact (stands (by decide)).2 (List.take_append_drop 3 _).symm mark (by decide)
  · exact (stands (by decide)).2 (List.take_append_drop 1 _).symm nothing (by decide)

end Cache

end AccountCache
