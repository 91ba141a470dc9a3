import AccountCache.Proofs.Layouts.OneOrTwo
import AccountCache.Proofs.Limits.Deadlines
import AccountCache.Proofs.ReadBack.Survival
import AccountCache.Proofs.Requests.Customs

namespace AccountCache

open Cache (longest reach)

/-- Whether it was granted to give a key a life of some seconds
from then on. -/
inductive Gives (key : String) (n : Nat) : (e : Effect) → e.Answer → Prop
  | set {e : Cache.Entry} : e.key = key → e.seconds = n → Gives key n (.cache (.set e)) (.ok ())
  /-- Of several entries for one key the last counts. -/
  | setMany {before after : List Cache.Entry} {e : Cache.Entry} : e.key = key → e.seconds = n →
    (∀ x ∈ after, x.key ≠ key) → Gives key n (.cache (.setMany (before ++ e :: after))) (.ok ())
  | expire {ttl : Duration} : ttl.seconds = n → Gives key n (.cache (.expire key ttl)) (.ok true)

theorem Gives.lifetimes_ne_nil {key : String} {n : Nat} {r : Cache.Request} {answer : (Effect.cache r).Answer}
    (gives : Gives key n (.cache r) answer) : r.lifetimes ≠ [] := by
  cases gives with
  | set | expire => exact List.cons_ne_nil _ _
  | setMany => simp [Cache.Request.lifetimes]

/-- Whether a counter was counted up to a number. -/
inductive Counts (key : String) (number : Int) : (e : Effect) → e.Answer → Prop
  | increment : Counts key number (.cache (.increment key)) (.ok number)

/-- Whether clocks show what may be expected: the one that never runs
backwards is far from its end, and the time of day is recent. -/
def Exchange.IsTimely : Exchange effects → Prop
  | ⟨.clock last, answer⟩ => last = .start → answer.1.Ample
  | ⟨.wallClock, now⟩ => Timestamp.IsRecent now
  | _ => True

namespace Accounts

variable {a : Accounts} {α β : Type}

def lifetimes (a : Accounts) : List Nat :=
  [a.cache.policy.defaultTtl.seconds, a.cache.policy.nilTtl.seconds, a.login.lockTtl.seconds]

theorem forall_mem_lifetimes {p : Nat → Prop} : (∀ n ∈ a.lifetimes, p n) ↔
    p a.cache.policy.defaultTtl.seconds ∧ p a.cache.policy.nilTtl.seconds ∧ p a.login.lockTtl.seconds := by
  simp [lifetimes]

theorem lockTtl_mem_lifetimes : a.login.lockTtl.seconds ∈ a.lifetimes :=
  (forall_mem_lifetimes.1 fun _ => id).2.2

/-- Whether a service is set to no time that is too long. A service whose
cache is switched off gives no lifetimes, so that these may be anything. -/
structure Moderate (a : Accounts) : Prop where
  lockDuration : a.cache.policy.lockDuration ≤ reach
  waitBudget : a.cache.policy.waitBudget ≤ reach
  lifetimes : a.cache.policy.disabled = false → ∀ n ∈ a.lifetimes, n ≤ longest

def Allows (a : Accounts) : Effect → Prop
  | .cache r => r.Fits ∧ (a.cache.policy.disabled = true → ∀ key n answer, ¬Gives key n (.cache r) answer)
  | .overflow => False
  | _ => True

theorem Allows.of_enabled {r : Cache.Request} (fits : r.Fits) (enabled : a.cache.policy.disabled = false) :
    a.Allows (.cache r) :=
  ⟨fits, fun disabled => Bool.noConfusion (enabled.symm.trans disabled)⟩

theorem Allows.of_lifetimes_eq {r : Cache.Request} (none : r.lifetimes = []) : a.Allows (.cache r) := by
  refine ⟨?_, fun _ _ _ _ gives => gives.lifetimes_ne_nil none⟩
  rw [Cache.Request.Fits, none]
  exact List.forall_mem_nil _

/-- An item lives within reach if its own lifetime does. -/
theorem Moderate.entry (moderate : a.Moderate) (enabled : a.cache.policy.disabled = false) {item : Cache.Item}
    (own : Duration.ofSeconds item.ttlSeconds ≤ reach) :
    Duration.ofSeconds (a.cache.entry item).seconds ≤ reach := by
  obtain ⟨usual, _⟩ := forall_mem_lifetimes.1 (moderate.lifetimes enabled)
  rw [Cache.Manager.entry, Cache.Manager.seconds]
  split
  · exact Duration.ofSeconds_le_reach usual
  · exact own

theorem Moderate.set (moderate : a.Moderate) (enabled : a.cache.policy.disabled = false) {item : Cache.Item}
    (own : Duration.ofSeconds item.ttlSeconds ≤ reach) : a.Allows (.cache (.set (a.cache.entry item))) :=
  .of_enabled (List.forall_mem_singleton.2 (moderate.entry enabled own)) enabled

theorem Moderate.mark (moderate : a.Moderate) (enabled : a.cache.policy.disabled = false) (key : String) :
    a.Allows (.cache (.set (a.cache.entry ⟨key, Cache.nilBytes, a.cache.policy.nilTtl⟩))) := by
  obtain ⟨_, absent, _⟩ := forall_mem_lifetimes.1 (moderate.lifetimes enabled)
  exact moderate.set enabled (Duration.ofSeconds_le_reach absent)

theorem Moderate.setMany (moderate : a.Moderate) (enabled : a.cache.policy.disabled = false) {items : List Cache.Item}
    (own : ∀ item ∈ items, item.ttl ≤ reach) : a.Allows (.cache (.setMany (items.map a.cache.entry))) := by
  refine .of_enabled (List.forall_mem_map.2 (List.forall_mem_map.2 fun item member => ?_)) enabled
  exact moderate.entry enabled (Nat.le_trans (Duration.ofSeconds_seconds_le _) (own item member))

/-- A session is cached for no longer than until its tokens expire, and
these can be written. -/
theorem ttl_le_reach_of_mem_sessionItems {s : Session} {bytes : Bytes} {now later : Timestamp}
    (encoded : Storable.encode? s = some bytes) (recent : now.IsRecent) (recent' : later.IsRecent) :
    ∀ item ∈ sessionItems s bytes now later, item.ttl ≤ reach := by
  obtain ⟨⟨access, refresh⟩, _⟩ := s.exists_toJson?.1 (Storable.exists_encode?.1 ⟨bytes, encoded⟩)
  intro item member
  simp only [sessionItems, List.mem_cons, List.not_mem_nil, or_false] at member
  rcases member with rfl | rfl | rfl
  · exact Timestamp.remaining_le_reach access recent
  · exact Timestamp.remaining_le_reach access recent
  · exact Timestamp.remaining_le_reach refresh recent'

theorem Moderate.acquire (moderate : a.Moderate) (key : String) (tries : Nat) :
    a.Allows (.cache (.acquire key a.cache.policy.lockDuration tries)) :=
  ⟨List.forall_mem_singleton.2 moderate.lockDuration, fun _ _ _ _ gives => by cases gives⟩

theorem Moderate.customs (moderate : a.Moderate) : a.Customs Exchange.IsTimely a.Allows where
  quiet e quiet other := by
    cases e with
    | cache | database => cases quiet
    | overflow => exact absurd rfl other
    | _ => trivial
  wait answer timely ends := by
    rw [(timely rfl).add? moderate.waitBudget] at ends
    cases ends
  get _ := .of_lifetimes_eq rfl
  isHeld _ := .of_lifetimes_eq rfl
  acquire key := moderate.acquire key _
  release _ := .of_lifetimes_eq rfl
  query _ _ := trivial
  delete _ := .of_lifetimes_eq rfl
  fill _ _ enabled _ :=
    have none : Duration.ofSeconds Duration.zero.seconds ≤ reach := Duration.ofSeconds_le_reach (by decide)
    moderate.set enabled none
  mark d enabled _ := moderate.mark enabled d.key
  sessions _ _ _ _ enabled encoded early late :=
    moderate.setMany enabled (ttl_le_reach_of_mem_sessionItems encoded early late)
  lifetime _ := .of_lifetimes_eq rfl

theorem Moderate.counting (moderate : a.Moderate) : a.Counting a.Allows where
  count _ := .of_lifetimes_eq rfl
  prolong _ enabled :=
    have lock := moderate.lifetimes enabled _ lockTtl_mem_lifetimes
    .of_enabled (List.forall_mem_singleton.2 (Duration.ofSeconds_le_reach lock)) enabled

end Accounts

namespace Cache.Use

variable {a : Accounts} {α : Type}

def lifetimes : Use α → List Duration
  | store item => [item.ttl]
  | storeMany items => items.map (·.ttl)
  | expire _ ttl => [ttl]
  | _ => []

theorem minds (moderate : a.Moderate) (use : Use α) (own : ∀ d ∈ use.lifetimes, d ≤ reach) :
    (use.perform a.cache).Minds Exchange.IsTimely a.Allows := by
  have customs := moderate.customs
  cases use with
  | get key => exact Manager.minds_get customs.toCustoms key
  | getOrLock key => exact Manager.minds_getOrLock customs.toCustoms key
  | acquireLock key =>
    rw [perform, Manager.acquireLock]
    split
    · exact .done _
    · exact .ask (customs.acquire key) fun _ => .done _
  | release lock => exact Manager.minds_release customs.toCustoms lock
  | store item =>
    refine Manager.minds_store fun enabled => moderate.set enabled ?_
    exact Nat.le_trans (Duration.ofSeconds_seconds_le _) (own item.ttl (List.mem_singleton_self _))
  | storeMany items =>
    exact Manager.minds_storeMany fun enabled => moderate.setMany enabled (List.forall_mem_map.1 own)
  | storeAbsent key => exact Manager.minds_store fun enabled => moderate.mark enabled key
  | delete keys => exact Manager.minds_delete (.of_lifetimes_eq rfl)
  | increment key => exact Manager.minds_increment (.of_lifetimes_eq rfl)
  | expire key ttl =>
    refine Manager.minds_expire fun enabled => .of_enabled (List.forall_mem_singleton.2 ?_) enabled
    exact Nat.le_trans (Duration.ofSeconds_seconds_le _) (own ttl (List.mem_singleton_self _))
  | lifetime key => exact Manager.minds_lifetime (.of_lifetimes_eq rfl)

end Cache.Use

namespace Accounts

variable {a : Accounts} {α : Type} {p : Action α}

/-- Whether a program uses the cache of a service by operations only, those
of its manager and those on accounts, and gives no lifetime of its own that
is out of reach; what it does beside does not matter. -/
inductive Uses (a : Accounts) : Action α → Prop
  | done (value : α) : Uses a (.done value)
  | cache {β : Type} (use : Cache.Use β) {f : β → Action α} : (∀ d ∈ use.lifetimes, d ≤ reach) →
    (∀ value, Uses a (f value)) → Uses a ((use.perform a.cache).bind f)
  | service {β : Type} (service : Service β) {f : Except Error β → Action α} :
    (∀ outcome, Uses a (f outcome)) → Uses a ((service.perform a).run.bind f)
  | beside {e : Effect} {next : e.Answer → Action α} : (∀ r, e ≠ .cache r) → e ≠ .overflow →
    (∀ answer, Uses a (next answer)) → Uses a (.ask e next)

theorem Moderate.service {β : Type} (moderate : a.Moderate) (service : Service β) :
    (service.perform a).run.Minds Exchange.IsTimely a.Allows :=
  have day : Duration.ofSeconds permissionTtl.seconds ≤ reach := Duration.ofSeconds_le_reach (by decide)
  service.minds_of_grants moderate.customs moderate.counting (fun _ => trivial) fun _ enabled =>
    moderate.set enabled day

/-- Who uses a moderate service asks for nothing that it does not allow, as
long as the clocks show nothing out of the ordinary. -/
theorem Uses.minds (uses : a.Uses p) (moderate : a.Moderate) : p.Minds Exchange.IsTimely a.Allows := by
  induction uses with
  | done value => exact .done value
  | cache use own _ ih => exact (use.minds moderate own).bind ih
  | service service _ ih => exact (moderate.service service).bind ih
  | @beside e next foreign goes _ ih =>
    have allowed : a.Allows e := by
      cases e with
      | cache r => exact absurd rfl (foreign r)
      | overflow => exact absurd rfl goes
      | _ => trivial
    exact .ask allowed ih

end Accounts

end AccountCache
