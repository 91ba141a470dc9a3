import AccountCache.Proofs.Coherence.Loads
import AccountCache.Proofs.Interleaving.GetOrLock
import AccountCache.Proofs.Store.Call

namespace AccountCache

namespace Accounts

inductive Read where
  | user (id : Uuid)
  | userByEmail (address : String)
  | password (id : Uuid)
  | session (type : TokenType) (token : String)
  | permission

def Read.perform (a : Accounts) : Read → Action Unit
  | user id => do let _ ← (a.findUser id).run
  | userByEmail address => do let _ ← (a.findUserByEmail address).run
  | password id => do let _ ← (a.findPassword id).run
  | session type token => do let _ ← (a.findSessionByToken type token).run
  | permission => do let _ ← a.loadPermission.run

def Write.perform (a : Accounts) : Write → Action Unit
  | createUser user hash => do let _ ← (a.createUser user hash).run
  | updateUser user => do let _ ← (a.updateUser user).run
  | deleteUser id => do let _ ← (a.deleteUser id).run
  | updatePassword id hash => do let _ ← (a.updatePassword id hash).run
  | createSession session => do let _ ← (a.createSession session).run
  | createGrant grant => do let _ ← (a.createGrant grant).run

/-- Where a client stands. A client caches only what an answer of the
database told it, so its stance has to remember the answers. -/
inductive Stance where
  /-- Its write has not reached the database. -/
  | pending
  /-- Its write has, and there may be older copies of what it affected. -/
  | dirty (affected : List Datum) (news : List Load)
  /-- It has nothing to write, and knows some answers of the database. -/
  | reading (known : List Load)

/-- Where a writer stands when the database has answered. -/
def Write.stance (a : Accounts) (w : Write) (answer : w.request.Result) : Stance :=
  if a.cache.policy.disabled = true ∨ w.affected answer = [] then .reading []
  else .dirty (w.affected answer) (w.news answer)

/-- Whether a known answer tells what is to be cached. -/
def Told (known : List Load) (e : Cache.Entry) : Prop :=
  ∃ d, ∃ l ∈ known, e.key = d.key ∧ l.Tells d e.value

theorem Told.tells {known : List Load} {e : Cache.Entry} {d : Datum} (told : Told known e)
    (own : e.key = d.key) : ∃ l ∈ known, l.Tells d e.value := by
  obtain ⟨d', l, knows, key, tells⟩ := told
  obtain rfl := Datum.key_injective (key.symm.trans own)
  exact ⟨l, knows, tells⟩

namespace Stance

/-- How a client goes on from a stance. These are the rules that reads and
writes keep to, and everything about copies is proved from them alone. -/
inductive Moves (a : Accounts) (asked : String → TokenType → Prop) (w : Write) : Discipline effects Stance
  | load {known r answer} : r.isRead = true → Load.Asked asked ⟨r, answer⟩ →
    Moves a asked w (reading known) (.database r) (.ok answer) (reading (⟨r, answer⟩ :: known))
  | miss {known r e} : r.isRead = true →
    Moves a asked w (reading known) (.database r) (.error e) (reading known)
  | look {known r answer} : r.IsLook → Moves a asked w (reading known) (.cache r) answer (reading known)
  | fill {known e} : a.cache.policy.disabled = false → e.seconds ≠ 0 → Told known e →
    Moves a asked w (reading known) (.cache (.set e)) (.ok ()) (reading known)
  | fillMany {known entries} : a.cache.policy.disabled = false → (∀ e ∈ entries, Told known e) →
    Moves a asked w (reading known) (.cache (.setMany entries)) (.ok ()) (reading known)
  | drop {known keys} : Moves a asked w (reading known) (.cache (.delete keys)) (.ok ()) (reading known)
  | write {answer} : Moves a asked w pending (.database w.request) (.ok answer) (w.stance a answer)
  | refuse {e} : Moves a asked w pending (.database w.request) (.error e) (reading [])
  | clean {affected news keys} : (∀ d ∈ affected, d.key ∈ keys) →
    Moves a asked w (dirty affected news) (.cache (.delete keys)) (.ok ()) (reading [])
  | refresh {affected news entries} : a.cache.policy.disabled = false → (∀ e ∈ entries, Told news e) →
    (∀ d ∈ affected, ∃ e ∈ entries, e.key = d.key) →
    Moves a asked w (dirty affected news) (.cache (.setMany entries)) (.ok ()) (reading [])
  | fail {s s' r e} : r.isIncrement = false → Moves a asked w s (.cache r) (.error e) s'
  | quiet {s e answer} : e.IsQuiet → Moves a asked w s e answer s

def known : Stance → List Load
  | pending => []
  | dirty _ known | reading known => known

def IsDirty (s : Stance) : Prop := ∃ affected news, s = dirty affected news

def IsReading (s : Stance) : Prop := ∃ known, s = reading known

end Stance

open Stance (Moves)

variable {a : Accounts} {asked : String → TokenType → Prop} {w : Write} {known : List Load} {α β : Type}

theorem moves_patient : Discipline.Patient (Moves a asked w) := fun _ _ quiet _ => .quiet quiet

/-- Whether a program keeps to the rules from wherever at least some answers
are known, and forgets none. -/
def Follows (a : Accounts) (asked : String → TokenType → Prop) (w : Write) (known : List Load)
    (p : Action α) : Prop :=
  ∀ more, known ⊆ more →
    p.Conforms (Moves a asked w) (fun s _ => ∃ most, more ⊆ most ∧ s = .reading most) (.reading more)

namespace Follows

theorem done (value : α) : Follows a asked w known (.done value) := fun more _ => ⟨more, fun _ => id, rfl⟩

theorem bind {p : Action α} {f : α → Action β} (first : Follows a asked w known p)
    (rest : ∀ value, Follows a asked w known (f value)) : Follows a asked w known (p.bind f) := by
  intro more knows
  refine (first more knows).bind ?_
  rintro _ value ⟨most, grown, rfl⟩
  refine (rest value most fun l member => grown (knows member)).mono ?_
  rintro _ _ ⟨all, grown', rfl⟩
  exact ⟨all, fun l member => grown' (grown member), rfl⟩

theorem andThen {p : Operation α} {f : α → Operation β} (first : Follows a asked w known p.run)
    (rest : ∀ value, Follows a asked w known (f value).run) : Follows a asked w known (p >>= f).run := by
  refine bind (f := ExceptT.bindCont f) first fun outcome => ?_
  cases outcome with
  | ok value => exact rest value
  | error e => exact done _

theorem lift {p : Action α} (follows : Follows a asked w known p) :
    Follows a asked w known (ExceptT.lift p : Operation α).run :=
  follows.bind fun _ => done _

theorem quiet {e : Effect} {next : e.Answer → Action α} (quiet : e.IsQuiet)
    (rest : ∀ answer, Follows a asked w known (next answer)) :
    Follows a asked w known (Program.ask (I := effects) e next) :=
  fun more knows => moves_patient.conforms quiet fun answer => rest answer more knows

theorem look {r : Cache.Request} {next : (Effect.cache r).Answer → Action α} (looks : r.IsLook)
    (rest : ∀ answer, Follows a asked w known (next answer)) :
    Follows a asked w known (Program.ask (I := effects) (.cache r) next) :=
  fun more knows answer => ⟨.reading more, .look looks, rest answer more knows⟩

theorem load {r : Database.Request} {f : r.Result → Operation α} (read : r.isRead = true)
    (asks : ∀ answer, Load.Asked asked ⟨r, answer⟩)
    (rest : ∀ answer, Follows a asked w (⟨r, answer⟩ :: known) (f answer).run) :
    Follows a asked w known (Operation.database r >>= f).run := by
  intro more knows answer
  cases answer with
  | error e => exact ⟨.reading more, .miss read, more, fun _ => id, rfl⟩
  | ok answer =>
    refine ⟨.reading (⟨r, answer⟩ :: more), .load read (asks answer), ?_⟩
    refine (rest answer _ (List.cons_subset_cons _ knows)).mono ?_
    rintro _ _ ⟨most, grown, rfl⟩
    exact ⟨most, fun l member => grown (List.mem_cons_of_mem _ member), rfl⟩

theorem conforms {p : Action α} (follows : Follows a asked w [] p) (known : List Load) :
    p.Conforms (Moves a asked w) (fun s _ => s.IsReading) (.reading known) := by
  refine (follows known (List.nil_subset known)).mono ?_
  rintro _ _ ⟨most, _, rfl⟩
  exact ⟨most, rfl⟩

end Follows

end Accounts

end AccountCache
