import AccountCache.Proofs.Layouts.OneOrTwo

namespace AccountCache

open Program (Conforms Course)

namespace Cache

namespace Use

variable {α : Type}

/-- What an operation yields if there is no cache, which does not depend on
anything but the operation. -/
def idle : Use α → α
  | get _ => none
  | getOrLock _ => .ok .bypass
  | acquireLock _ => .ok none
  | release _ => ()
  | store _ | storeMany _ | storeAbsent _ | delete _ | expire .. => .ok ()
  | increment _ => .ok 0
  | lifetime _ => .ok .missing

def released : Use α → List Lock
  | release lock => [lock]
  | _ => []

/-- Every operation but one is over at once. -/
theorem perform_of_disabled {m : Manager} (disabled : m.policy.disabled = true) {use : Use α}
    (keeps : use.released = []) : use.perform m = .done use.idle := by
  cases use with
  | release lock => cases keeps
  | get key => exact if_pos disabled
  | getOrLock key => exact if_pos disabled
  | acquireLock key => exact if_pos disabled
  | store item => exact if_pos disabled
  | storeAbsent key => exact if_pos disabled
  | increment key => exact if_pos disabled
  | expire key ttl => exact if_pos disabled
  | lifetime key => exact if_pos disabled
  | storeMany items =>
    rw [perform, Manager.storeMany, disabled]
    rfl
  | delete keys =>
    rw [perform, Manager.delete, disabled]
    rfl

end Use

/-- Whoever does one operation of a manager after the other, the next in the
light of what the ones before yielded. -/
inductive Client (α : Type) : Type 1
  | done (value : α)
  | use {β : Type} (use : Use β) (next : β → Client α)

namespace Client

variable {α : Type}

def perform (m : Manager) : Client α → Action α
  | done value => .done value
  | use u next => (u.perform m).bind fun value => (next value).perform m

def outcome : Client α → α
  | done value => value
  | use u next => (next u.idle).outcome

def releases : Client α → List Lock
  | done _ => []
  | use u next => u.released ++ (next u.idle).releases

end Client

/-- The rule to give back some locks in their order, with at most one
warning for each. It says nothing about the answers, by which the warning
is decided. -/
inductive Returning : Discipline effects (List Lock × Bool)
  | release {lock rest owed} (answer) : Returning (lock :: rest, owed) (.cache (.release lock)) answer (rest, true)
  | warn {rest} (message) : Returning (rest, true) (.warn message) () (rest, false)

theorem Manager.returns_release {lock : Lock} {rest : List Lock} {owed : Bool} :
    (release lock).Conforms Returning (fun s _ => s.1 = rest) (lock :: rest, owed) := by
  have warned : ∀ message, (Action.warn message).Conforms Returning (fun s _ => s.1 = rest) (rest, true) :=
    fun message _ => ⟨_, .warn message, rfl⟩
  intro answer
  refine ⟨_, .release answer, ?_⟩
  rcases answer with e | _ | _
  · exact warned _
  · exact warned _
  · exact rfl

namespace Client

variable {α : Type} {m : Manager}

theorem returns (disabled : m.policy.disabled = true) (client : Client α) (owed : Bool) :
    (client.perform m).Conforms Returning (fun s value => s.1 = [] ∧ value = client.outcome)
      (client.releases, owed) := by
  induction client generalizing owed with
  | done value => exact ⟨rfl, rfl⟩
  | use u next ih =>
    cases keeps : u.released with
    | nil =>
      rw [perform, Use.perform_of_disabled disabled keeps, Program.bind_done, releases, keeps]
      exact ih u.idle owed
    | cons lock rest =>
      cases u with
      | release lock' =>
        obtain ⟨rfl, rfl⟩ := List.cons.inj keeps
        refine Manager.returns_release.bind fun s _ left => ?_
        obtain ⟨_, owed⟩ := s
        subst left
        exact ih () owed
      | _ => cases keeps

theorem perform_of_disabled (disabled : m.policy.disabled = true) (client : Client α) (keeps : client.releases = []) :
    client.perform m = .done client.outcome := by
  induction client with
  | done value => rfl
  | use u next ih =>
    obtain ⟨none, further⟩ := List.append_eq_nil_iff.1 keeps
    rw [perform, Use.perform_of_disabled disabled none, Program.bind_done]
    exact ih u.idle further

end Client

def requests (talk : List (Exchange effects)) : List Request :=
  talk.filterMap fun x => match x.request with
    | .cache r => some r
    | _ => none

theorem requests_append (talk talk' : List (Exchange effects)) :
    requests (talk ++ talk') = requests talk ++ requests talk' := List.filterMap_append

/-- Whether a client has done nothing but give back locks, and some are left
to be given back. A warning may be owed. -/
structure Client.HasReturned {α : Type} (client : Client α) (talk : List (Exchange effects)) (s : List Lock × Bool) :
    Prop where
  known : ∀ x ∈ talk, (∃ lock ∈ client.releases, x.request = .cache (.release lock)) ∨
    ∃ message, x.request = .warn message
  short : talk.length + s.2.toNat ≤ 2 * (requests talk).length
  order : requests talk ++ s.1.map .release = client.releases.map .release

namespace Client

variable {α : Type} {client : Client α} {talk : List (Exchange effects)}

theorem HasReturned.step {s s' : List Lock × Bool} {e : Effect} {answer : e.Answer}
    (returned : client.HasReturned talk s) (move : Returning s e answer s') :
    client.HasReturned (talk ++ [⟨e, answer⟩]) s' := by
  obtain ⟨known, short, order⟩ := returned
  cases move with
  | @release lock rest owed answer =>
    have member : Request.release lock ∈ client.releases.map Request.release := by
      rw [← order]
      exact List.mem_append_right _ (List.mem_cons_self ..)
    have own : lock ∈ client.releases := by
      obtain ⟨_, own, same⟩ := List.mem_map.1 member
      cases same
      exact own
    refine ⟨List.forall_mem_append.2 ⟨known, List.forall_mem_singleton.2 (.inl ⟨lock, own, rfl⟩)⟩, ?_, ?_⟩
    · have asked : (requests [⟨.cache (.release lock), answer⟩]).length = 1 := rfl
      rw [requests_append, List.length_append, List.length_append, asked, List.length_singleton, Bool.toNat_true]
      omega
    · rw [← order, requests_append, List.append_assoc]
      rfl
  | @warn rest message =>
    have silent : requests [⟨.warn message, ()⟩] = [] := rfl
    rw [Bool.toNat_true] at short
    refine ⟨List.forall_mem_append.2 ⟨known, List.forall_mem_singleton.2 (.inr ⟨message, rfl⟩)⟩, ?_, ?_⟩
    · rwa [requests_append, silent, List.append_nil, List.length_append, List.length_singleton]
    · rwa [requests_append, silent, List.append_nil]

/-- On its way a client has given back the first of its locks, and it ends
when none is left. -/
theorem returned_of_course {m : Manager} (disabled : m.policy.disabled = true) {q : Action α}
    (course : (client.perform m).Course talk q) :
    ∃ s, client.HasReturned talk s ∧ q.Conforms Returning (fun s value => s.1 = [] ∧ value = client.outcome) s :=
  course.invariant client.HasReturned (client.returns disabled false) ⟨fun _ => nofun, Nat.le_refl 0, rfl⟩
    HasReturned.step

/-- Whoever uses a disabled manager, whatever the store and the locks would
answer, asks them for nothing but to take back the locks that are given
back, one after the other, and goes on without waiting: beside these
requests there is at most one warning for each. In the end every operation
has yielded what it yields if there is no cache. So nothing is asked at all
exactly if no lock is given back. -/
theorem idles (m : Manager) (disabled : m.policy.disabled = true) (client : Client α) :
    (client.perform m = .done client.outcome ↔ client.releases = []) ∧
      ∀ talk q, (client.perform m).Course talk q →
        (∀ x ∈ talk, (∃ lock ∈ client.releases, x.request = .cache (.release lock)) ∨
          ∃ message, x.request = .warn message) ∧
        talk.length ≤ 2 * (requests talk).length ∧ requests talk <+: client.releases.map .release ∧
        ∀ value, q = .done value → value = client.outcome ∧ requests talk = client.releases.map .release := by
  refine ⟨⟨fun done => ?_, client.perform_of_disabled disabled⟩, fun talk q course => ?_⟩
  · obtain ⟨s, returned, ended⟩ := client.returned_of_course disabled (m := m) .stay
    rw [done] at ended
    have order := returned.order
    rw [ended.1] at order
    exact List.map_eq_nil_iff.1 order.symm
  · obtain ⟨s, returned, ended⟩ := returned_of_course disabled course
    refine ⟨returned.known, Nat.le_of_add_right_le returned.short, ⟨_, returned.order⟩, ?_⟩
    rintro value rfl
    have order := returned.order
    rw [ended.1, List.map_nil, List.append_nil] at order
    exact ⟨ended.2, order⟩

def stray : Client (Except Error Int) :=
  .use (.getOrLock "k") fun _ => .use (.release ⟨"k", "t", .ofSeconds 60⟩) fun _ => .use (.increment "k") .done

/-- The client neither gets a value nor counts, but the locks hear of the
one that is given back. -/
theorem stray_idles : ∃ (m : Manager) (talk : List (Exchange effects)) (count : Except Error Int),
    m.policy.disabled = true ∧ (stray.perform m).Course talk (.done count) ∧ count = .ok 0 ∧
      requests talk = [.release ⟨"k", "t", .ofSeconds 60⟩] := by
  let idle : Manager := ⟨{ disabled := true }, by decide⟩
  have course : (stray.perform idle).Course
      [⟨.cache (.release ⟨"k", "t", .ofSeconds 60⟩), .ok false⟩, ⟨.warn "lock expired before release", ()⟩]
      (.done (.ok 0)) := .ask _ (.ask _ .stay)
  obtain ⟨count, asked⟩ := ((stray.idles idle rfl).2 _ _ course).2.2.2 _ rfl
  exact ⟨idle, _, _, rfl, course, count, asked⟩

/-- It is not so that a disabled manager asks for nothing: it hands over the
lock that it is given back. -/
theorem returns_lock_in_vain : ¬∀ (m : Manager), m.policy.disabled = true → ∀ (α : Type) (client : Client α)
    (talk : List (Exchange effects)) (q : Action α), (client.perform m).Course talk q → requests talk = [] := by
  intro none
  let lock : Lock := ⟨"k", "t", .ofSeconds 60⟩
  have course : Course ((Client.use (.release lock) .done).perform ⟨{ disabled := true }, by decide⟩)
      [⟨.cache (.release lock), .ok true⟩] (.done ()) := .ask _ .stay
  cases none _ rfl Unit _ _ _ course

end Client

end Cache

end AccountCache
