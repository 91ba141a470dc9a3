import AccountCache.Proofs.Servers.Exchanges
import Mathlib.Logic.Function.Basic

namespace AccountCache

namespace Redis

open Cache (Error IdealStore MemoryStore Refines Request)

/-- An operation that is about to send the commands of an exchange. -/
structure Pending where
  request : Request
  token : String
  commands : List Command
  next : Except Error (List Reply) → Program wire (Except Error request.Result)

/-- An operation that is over, with the moment of its last exchange. -/
structure Ended where
  moment : Instant
  request : Request
  token : String
  outcome : Except Error request.Result

/-- A server, what its clients are about to do, and what they did, last
first. Operations overlap as long as they are pending. -/
structure Scene (ι : Type) where
  link : Link
  pending : ι → Option Pending
  log : List Ended

/-- What becomes of a store in memory that serves the same requests at the
same moments. -/
def replay (s : MemoryStore) : List Ended → MemoryStore
  | [] => s
  | op :: earlier => ((replay s earlier).serve op.moment op.token op.request).2

/-- Whether a key is there that was written since it was last absent. -/
def Written (s : MemoryStore) (key : String) : List Ended → Instant → Prop
  | [], _ => False
  | op :: earlier, now =>
    (op.request.Writes key ∨ Written s key earlier op.moment) ∧ ((replay s (op :: earlier)).live? now key).isSome = true

/-- Whether a request counts up no key that was written since it was
last absent. -/
def CountsUnwritten (s : MemoryStore) (log : List Ended) (now : Instant) (r : Request) : Prop :=
  ∀ key, r = .increment key → ¬Written s key log now

variable {ι : Type} {threshold : Nat} {first now : Instant} {scene : Scene ι} {store : MemoryStore} {r : Request}

def Scene.goOn [DecidableEq ι] (scene : Scene ι) (j : ι) (token : String) (r : Request) :
    Program wire (Except Error r.Result) → Scene ι
  | .done outcome =>
    ⟨scene.link, Function.update scene.pending j none, ⟨scene.link.clock, r, token, outcome⟩ :: scene.log⟩
  | .ask commands next =>
    ⟨scene.link, Function.update scene.pending j (some ⟨r, token, commands, next⟩), scene.log⟩

/-- What may come to be, one exchange of one client after the other, with a
server that is empty at the start and whose clock does not run out. -/
inductive Traffic [DecidableEq ι] (threshold : Nat) (first : Instant) : Scene ι → Prop
  | start : first.Roomy → Traffic threshold first ⟨{ clock := first }, fun _ => none, []⟩
  | wait {scene : Scene ι} (later : Instant) : Traffic threshold first scene → scene.link.clock ≤ later →
      later.Roomy → Traffic threshold first { scene with link := { scene.link with clock := later } }
  | begin {scene : Scene ι} (j : ι) (r : Request) (token : Uuid) : Traffic threshold first scene →
      scene.pending j = none → Sendable r →
        Traffic threshold first (scene.goOn j token.text r (Exchange.perform token.text r).run)
  | exchange {scene : Scene ι} {p : Pending} (j : ι) : Traffic threshold first scene → scene.pending j = some p →
      CountsUnwritten (.withThreshold threshold first) scene.log scene.link.clock p.request →
        Traffic threshold first ({ scene with link := (scene.link.exchange p.commands).2 }.goOn j p.token p.request
          (p.next (scene.link.exchange p.commands).1))

/-- Whether a pending operation proceeds, on a server that has the release
script if it was left to the operation. -/
def Pending.Proceeds (p : Pending) (server : Server) : Prop :=
  Sendable p.request ∧ (∃ u : Uuid, p.token = u.text) ∧ ∃ server₀ i₀ now₀,
    (server₀.knowsRelease = true → server.knowsRelease = true) ∧
      Redis.Proceeds p.token p.request (.ask p.commands p.next) server₀ i₀ now₀

/-- Whether an operation came to what a store in memory answers that has
served the earlier ones. No matter which error it is. A counter only finds
values that every server reads alike. -/
def Ended.IsAlike (store : MemoryStore) (earlier : List Ended) (op : Ended) : Prop :=
  ((replay store earlier).serve op.moment op.token op.request).1.map Except.toOption = some op.outcome.toOption ∧
    ∀ key e, op.request = .increment key → (replay store earlier).live? op.moment key = some e →
      MemoryStore.IsPlain e.value

/-- What holds between a server and a store in memory that does what was
done. Every exchange keeps it, whether it ends an operation or not. -/
structure Faithful (store : MemoryStore) (scene : Scene ι) : Prop where
  up : scene.link.isUp = true
  roomy : scene.link.clock.Roomy
  mirrors : ∃ i, Refines (replay store scene.log) i scene.link.clock ∧ scene.link.server.Mirrors i scene.link.clock
  pending : ∀ j p, scene.pending j = some p → p.Proceeds scene.link.server
  plain : ∀ key e, (replay store scene.log).live? scene.link.clock key = some e →
    Written store key scene.log scene.link.clock ∨ MemoryStore.IsPlain e.value
  alike : ∀ op earlier, op :: earlier <:+ scene.log → op.IsAlike store earlier

theorem Written.wait {key : String} {log : List Ended} {later : Instant} (written : Written store key log now)
    (live : ((replay store log).live? later key).isSome = true) : Written store key log later := by
  cases log with
  | nil => exact written
  | cons op earlier => exact ⟨written.1, live⟩

theorem Pending.Proceeds.mono {p : Pending} {server server' : Server} (proceeds : p.Proceeds server)
    (kept : server.knowsRelease = true → server'.knowsRelease = true) : p.Proceeds server' := by
  obtain ⟨sendable, named, server₀, i₀, now₀, known, rest⟩ := proceeds
  exact ⟨sendable, named, server₀, i₀, now₀, fun loaded => kept (known loaded), rest⟩

namespace Faithful

theorem start (roomy : first.Roomy) :
    Faithful (.withThreshold threshold first) (⟨{ clock := first }, fun _ => none, []⟩ : Scene ι) where
  up := rfl
  roomy := roomy
  mirrors := ⟨.empty, .start threshold first, ⟨rfl, rfl⟩, fun _ => rfl⟩
  pending _ _ := nofun
  plain _ _ live := nomatch live
  alike _ _ part := nomatch List.eq_nil_of_suffix_nil part

theorem wait (faithful : Faithful store scene) {later : Instant} (order : scene.link.clock ≤ later)
    (roomy : later.Roomy) : Faithful store { scene with link := { scene.link with clock := later } } where
  up := faithful.up
  roomy := roomy
  mirrors := by
    obtain ⟨i, ref, mirrors⟩ := faithful.mirrors
    exact ⟨i, ref.wait order, mirrors.wait order⟩
  pending := faithful.pending
  plain key e live := by
    have before := live
    rw [MemoryStore.live?_of_le _ order, Option.filter_eq_some_iff] at before
    rcases faithful.plain key e before.1 with written | plain
    · exact .inl (written.wait (by rw [live]; rfl))
    · exact .inr plain
  alike := faithful.alike

variable [DecidableEq ι] {server : Server} {received : List Command} {u : Uuid} {i : IdealStore}

theorem ask (faithful : Faithful store scene) (j : ι)
    (kept : scene.link.server.knowsRelease = true → server.knowsRelease = true) (sendable : Sendable r)
    (ref : Refines (replay store scene.log) i scene.link.clock) {commands : List Command}
    {next : Except Error (List Reply) → Program wire (Except Error r.Result)}
    (proceeds : Redis.Proceeds u.text r (.ask commands next) server i scene.link.clock) :
    Faithful store
      ({ scene with link := { scene.link with server, received } }.goOn j u.text r (.ask commands next)) where
  up := faithful.up
  roomy := faithful.roomy
  mirrors := ⟨i, ref, proceeds.1⟩
  pending := by
    refine (Function.forall_update_iff scene.pending fun _ q => ∀ p, q = some p → p.Proceeds server).2 ⟨?_, ?_⟩
    · rintro _ ⟨⟩
      exact ⟨sendable, ⟨u, rfl⟩, server, i, scene.link.clock, id, proceeds⟩
    · intro other _ p pending
      exact (faithful.pending other p pending).mono kept
  plain := faithful.plain
  alike := faithful.alike

theorem done (faithful : Faithful store scene) (j : ι)
    (kept : scene.link.server.knowsRelease = true → server.knowsRelease = true) (sendable : Sendable r)
    (ref : Refines (replay store scene.log) i scene.link.clock) {outcome : Except Error r.Result}
    (proceeds : Redis.Proceeds u.text r (.done outcome) server i scene.link.clock)
    (counts : CountsUnwritten store scene.log scene.link.clock r) :
    Faithful store ({ scene with link := { scene.link with server, received } }.goOn j u.text r (.done outcome)) := by
  have bounded : (Cache.Call.request r u.text).Bounded := Exchange.bounded_of_sendable sendable
  obtain ⟨answered, after⟩ := ref.call faithful.roomy bounded
  obtain ⟨same, mirrors⟩ := proceeds
  have unwritten : ∀ key e, r = .increment key → (replay store scene.log).live? scene.link.clock key = some e →
      MemoryStore.IsPlain e.value := by
    intro key e counter live
    exact (faithful.plain key e live).resolve_left (counts key counter)
  refine ⟨faithful.up, faithful.roomy, ⟨_, after, mirrors⟩, ?_, ?_, ?_⟩
  · refine (Function.forall_update_iff scene.pending fun _ q => ∀ p, q = some p → p.Proceeds server).2 ⟨nofun, ?_⟩
    intro other _ p pending
    exact (faithful.pending other p pending).mono kept
  · intro key e live
    have there : ((replay store (⟨scene.link.clock, r, u.text, outcome⟩ :: scene.log)).live? scene.link.clock
      key).isSome = true := Option.isSome_of_eq_some live
    rcases MemoryStore.live?_of_serve live with writes | plain | ⟨before, old, value⟩
    · exact .inl ⟨.inl writes, there⟩
    · exact .inr plain
    · rcases faithful.plain key before old with written | plain
      · exact .inl ⟨.inr written, there⟩
      · exact .inr (value ▸ plain)
  · intro op earlier part
    rcases List.suffix_cons_iff.1 part with new | old
    · obtain ⟨rfl, rfl⟩ := List.cons.inj new
      refine ⟨?_, unwritten⟩
      rw [same]
      exact congrArg (Option.map Except.toOption) answered
    · exact faithful.alike op earlier old

theorem goOn (faithful : Faithful store scene) (j : ι)
    (kept : scene.link.server.knowsRelease = true → server.knowsRelease = true) (sendable : Sendable r)
    (ref : Refines (replay store scene.log) i scene.link.clock) {p : Program wire (Except Error r.Result)}
    (proceeds : Redis.Proceeds u.text r p server i scene.link.clock)
    (counts : ∀ outcome, p = .done outcome → CountsUnwritten store scene.log scene.link.clock r) :
    Faithful store ({ scene with link := { scene.link with server, received } }.goOn j u.text r p) := by
  cases p with
  | ask commands next => exact faithful.ask j kept sendable ref proceeds
  | done outcome => exact faithful.done j kept sendable ref proceeds (counts outcome rfl)

end Faithful

variable [DecidableEq ι]

theorem Traffic.faithful (traffic : Traffic threshold first scene) :
    Faithful (.withThreshold threshold first) scene := by
  induction traffic with
  | start roomy => exact .start roomy
  | wait later _ order roomy ih => exact ih.wait order roomy
  | @begin scene j r token _ idle sendable ih =>
    obtain ⟨i, ref, mirrors⟩ := ih.mirrors
    refine ih.goOn j id sendable ref (Exchange.proceeds_perform token.text sendable mirrors) ?_
    rintro outcome begun key rfl
    cases begun
  | @exchange scene p j _ pending counts ih =>
    obtain ⟨i, ref, mirrors⟩ := ih.mirrors
    obtain ⟨request, token, commands, next⟩ := p
    obtain ⟨sendable, ⟨u, rfl⟩, server, i₀, now₀, known, _, proceeds⟩ := ih.pending j _ pending
    have near : Near i scene.link.clock := fun key e deadline found =>
      ref.near ((ref.find?_eq key).symm.trans found)
    have sent : scene.link.exchange commands = (.ok (scene.link.server.serveAll scene.link.clock commands).1,
        { scene.link with
          server := (scene.link.server.serveAll scene.link.clock commands).2,
          received := commands.reverse ++ scene.link.received }) := by rw [Link.exchange, if_pos ih.up]
    simp only [sent]
    exact ih.goOn j (fun loaded => Server.knowsRelease_serveAll loaded commands) sendable ref
      (proceeds _ i _ known mirrors near) fun _ _ => counts

/-- An operation that is left to itself comes to an end. -/
theorem Traffic.carry (j : ι) (token : String) {p : Program wire (Except Error r.Result)}
    (traffic : Traffic threshold first (scene.goOn j token r p))
    (counts : CountsUnwritten (.withThreshold threshold first) scene.log scene.link.clock r) :
    Traffic threshold first ⟨(scene.link.carry p).2, Function.update scene.pending j none,
      ⟨scene.link.clock, r, token, (scene.link.carry p).1⟩ :: scene.log⟩ := by
  induction p generalizing scene with
  | done outcome => exact traffic
  | ask commands next ih =>
    have pending : (scene.goOn j token r (.ask commands next)).pending j = some ⟨r, token, commands, next⟩ :=
      Function.update_self ..
    have after : Traffic threshold first (Scene.goOn ⟨(scene.link.exchange commands).2,
        Function.update scene.pending j (some ⟨r, token, commands, next⟩), scene.log⟩ j token r
          (next (scene.link.exchange commands).1)) := traffic.exchange j pending counts
    have clock : (scene.link.exchange commands).2.clock = scene.link.clock := by
      rw [Link.exchange]
      split
      · rfl
      · rfl
    rw [← clock] at counts
    have rest := ih _ after counts
    rw [Function.update_idem, clock] at rest
    exact rest

/-- An operation without an overlap is one that the link serves. -/
theorem Traffic.serve (traffic : Traffic threshold first scene) (j : ι) (r : Request) (token : Uuid)
    (idle : scene.pending j = none) (sendable : Sendable r)
    (counts : CountsUnwritten (.withThreshold threshold first) scene.log scene.link.clock r) :
    Traffic threshold first ⟨(scene.link.serve token.text r).2, scene.pending,
      ⟨scene.link.clock, r, token.text, (scene.link.serve token.text r).1⟩ :: scene.log⟩ := by
  have done := (traffic.begin j r token idle sendable).carry j token.text counts
  rwa [← idle, Function.update_eq_self] at done

/-- In every run of operations on a server each one comes to what a store in
memory answers to it at the moment of its last exchange, or fails if that
does, and counters find nothing that is read differently elsewhere; and none
is kept from ending. -/
theorem server_or_memory (traffic : Traffic threshold first scene) :
    (∀ op earlier, op :: earlier <:+ scene.log → op.IsAlike (.withThreshold threshold first) earlier) ∧
      ∀ j p, scene.pending j = some p →
        CountsUnwritten (.withThreshold threshold first) scene.log scene.link.clock p.request →
          ∃ link outcome, Traffic threshold first ⟨link, Function.update scene.pending j none,
            ⟨scene.link.clock, p.request, p.token, outcome⟩ :: scene.log⟩ := by
  refine ⟨traffic.faithful.alike, fun j p pending counts => ?_⟩
  have here : scene.goOn j p.token p.request (.ask p.commands p.next) = scene := by
    rw [Scene.goOn, ← pending, Function.update_eq_self]
  rw [← here] at traffic
  exact ⟨_, _, traffic.carry j p.token counts⟩

/-- A lock that expires between two attempts at it, after a counter and a
batch that names a key twice. -/
theorem granted_at_second_attempt :
    ∃ (scene : Scene Bool) (earlier : List Ended), Traffic 1 ⟨0⟩ scene ∧
      scene.log = ⟨⟨1000000⟩, .acquire "k" (.ofMillis 1) 2, Uuid.zero.text,
        .ok (some ⟨"k", Uuid.zero.text, .ofMillis 1⟩)⟩ :: earlier ∧
      ∀ op before, op :: before <:+ scene.log → op.IsAlike (.withThreshold 1 ⟨0⟩) before := by
  have empty : Traffic 1 ⟨0⟩ (⟨{ clock := ⟨0⟩ }, fun _ => none, []⟩ : Scene Bool) := .start (by decide)
  have one := empty.serve true (.increment "n") .zero rfl trivial fun _ _ => id
  have two := one.serve true (.increment "n") .zero rfl trivial fun _ _ written => written.1.elim id id
  have wrote := two.serve true (.setMany [⟨"k", .ofText "a", 1⟩, ⟨"k", .ofText "b", 2⟩]) .zero rfl
    (by simp [Sendable]) (fun _ => nofun)
  have taken := wrote.serve true (.acquire "k" (.ofMillis 1) 1) (.ofNat 1) rfl ⟨1, by decide, by decide, rfl⟩
    (fun _ => nofun)
  have tries := taken.begin false (.acquire "k" (.ofMillis 1) 2) .zero rfl ⟨1, by decide, by decide, rfl⟩
  have refused := tries.exchange false rfl (fun _ => nofun)
  have waited := refused.wait ⟨1000000⟩ (by decide) (by decide)
  have granted := waited.exchange false rfl (fun _ => nofun)
  exact ⟨_, _, granted, rfl, (server_or_memory granted).1⟩

end Redis

end AccountCache
