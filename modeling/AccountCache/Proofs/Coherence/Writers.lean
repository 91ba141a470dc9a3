import AccountCache.Proofs.Coherence.Readers

namespace AccountCache

namespace Accounts

open Stance (Moves)

variable {a : Accounts} {asked : String → TokenType → Prop} {w : Write} {α β : Type}

namespace Write

theorem conforms_request {f : w.request.Result → Operation α}
    (rest : ∀ answer, (f answer).run.Conforms (Moves a asked w) (fun s _ => s.IsReading) (w.stance a answer)) :
    (Operation.database w.request >>= f).run.Conforms (Moves a asked w) (fun s _ => s.IsReading) .pending := by
  intro answer
  cases answer with
  | error e => exact ⟨.reading [], .refuse, [], rfl⟩
  | ok answer => exact ⟨w.stance a answer, .write, rest answer⟩

theorem conforms_invalidate {answer : w.request.Result} {keys : List String}
    (covers : ∀ d ∈ w.affected answer, d.key ∈ keys) :
    (a.invalidate keys).Conforms (Moves a asked w) (fun s _ => s.IsReading) (w.stance a answer) := by
  rw [stance]
  split
  · exact (Follows.invalidate keys).conforms []
  · next dirty =>
    obtain ⟨enabled, affects⟩ := not_or.1 dirty
    obtain ⟨d, member⟩ := List.exists_mem_of_ne_nil _ affects
    have filled : ¬(a.cache.policy.disabled || keys.isEmpty) = true := by
      rw [Bool.or_eq_true, List.isEmpty_iff]
      rintro (disabled | none)
      · exact enabled disabled
      · exact List.ne_nil_of_mem (covers d member) none
    rw [invalidate, Cache.Manager.delete, if_neg filled]
    intro outcome
    cases outcome with
    | ok => exact ⟨.reading [], .clean covers, [], rfl⟩
    | error e => exact ⟨.reading [], .fail rfl, moves_patient.conforms (e := .warn _) trivial fun _ => ⟨[], rfl⟩⟩

theorem conforms_andThen {p : Action α} {f : α → Operation β} {s : Stance}
    (first : p.Conforms (Moves a asked w) (fun s _ => s.IsReading) s)
    (rest : ∀ value, Follows a asked w [] (f value).run) :
    (ExceptT.lift p >>= f).run.Conforms (Moves a asked w) (fun s _ => s.IsReading) s := by
  have lifted : (ExceptT.lift p : Operation α).run.Conforms (Moves a asked w) (fun s _ => s.IsReading) s := by
    refine first.bind fun s value reading => ?_
    exact reading
  refine lifted.bind (f := ExceptT.bindCont f) ?_
  rintro _ (e | value) ⟨known, rfl⟩
  · exact ⟨known, rfl⟩
  · exact (rest value).conforms known

theorem conforms_createUser (user : User) (hash : String) : (a.createUser user hash).run.Conforms
    (Moves a asked (createUser user hash)) (fun s _ => s.IsReading) .pending := by
  refine conforms_request (w := createUser user hash) fun _ => ?_
  refine (conforms_invalidate (w := createUser user hash) fun _ => List.mem_map_of_mem).bind ?_
  exact fun _ _ reading => reading

theorem conforms_updateUser (user : User) : (a.updateUser user).run.Conforms
    (Moves a asked (updateUser user)) (fun s _ => s.IsReading) .pending := by
  refine conforms_request (w := updateUser user) fun answer => ?_
  cases answer with
  | none =>
    have nothing : (updateUser user).stance a none = .reading [] := if_pos (.inr rfl)
    rw [nothing]
    exact ⟨[], rfl⟩
  | some row =>
    refine conforms_andThen (conforms_invalidate (w := updateUser user) fun d member => ?_) fun _ =>
      Follows.findUser row.id
    simp only [affected] at member
    split at member
    · next same =>
      rw [if_pos same]
      exact List.mem_map_of_mem member
    · next differ =>
      rw [if_neg differ]
      exact List.mem_map_of_mem member

theorem conforms_deleteUser (id : Uuid) : (a.deleteUser id).run.Conforms
    (Moves a asked (deleteUser id)) (fun s _ => s.IsReading) .pending := by
  refine conforms_request (w := deleteUser id) fun answer => ?_
  refine conforms_andThen (conforms_invalidate (w := deleteUser id) fun d member => ?_) fun _ => .done _
  cases answer with
  | none | some row => exact List.mem_map_of_mem member

theorem conforms_updatePassword (id : Uuid) (hash : String) : (a.updatePassword id hash).run.Conforms
    (Moves a asked (updatePassword id hash)) (fun s _ => s.IsReading) .pending := by
  refine conforms_request (w := updatePassword id hash) fun _ => ?_
  refine (conforms_invalidate (w := updatePassword id hash) fun _ => List.mem_map_of_mem).bind ?_
  exact fun _ _ reading => reading

theorem conforms_createGrant (g : Grant) : (a.createGrant g).run.Conforms
    (Moves a asked (createGrant g)) (fun s _ => s.IsReading) .pending := by
  refine conforms_request (w := createGrant g) fun _ => ?_
  refine (conforms_invalidate (w := createGrant g) fun _ => List.mem_map_of_mem).bind ?_
  exact fun _ _ reading => reading

theorem affected_createSession {s row : Session} {bytes : Bytes} (encoded : Storable.encode? row = some bytes) :
    (createSession s).affected row = row.data := by
  have able : (Storable.encode? row).isSome = true := by rw [encoded, Option.isSome_some]
  exact if_pos able

/-- A new session refills its keys itself. -/
theorem conforms_cacheSession (s row : Session) :
    (a.cacheSession row).Conforms (Moves a asked (createSession s)) (fun s _ => s.IsReading)
      ((createSession s).stance a row) := by
  cases encoded : Storable.encode? row with
  | none =>
    have unable : ¬(Storable.encode? row).isSome = true := by
      rw [encoded, Option.isSome_none]
      exact Bool.false_ne_true
    have settled : (createSession s).stance a row = .reading [] := if_pos (.inr (if_neg unable))
    rw [settled]
    refine (Follows.cacheSession fun bytes same => ?_).conforms []
    rw [encoded] at same
    cases same
  | some bytes =>
    rw [cacheSession_eq a encoded]
    refine moves_patient.conforms (e := .wallClock) trivial fun now => ?_
    refine moves_patient.conforms (e := .wallClock) trivial fun later => ?_
    have affects := affected_createSession (s := s) encoded
    simp only [Program.bind_done, cacheItems, Cache.Manager.storeMany]
    cases disabled : a.cache.policy.disabled with
    | true =>
      have settled : (createSession s).stance a row = .reading [] := if_pos (.inl disabled)
      rw [settled]
      exact ⟨[], rfl⟩
    | false =>
      have unsettled : ¬(a.cache.policy.disabled = true ∨ (createSession s).affected row = []) := by
        rw [disabled, affects]
        rintro (off | none)
        · cases off
        · cases none
      have dirty : (createSession s).stance a row = .dirty row.data ((createSession s).news row) :=
        (if_neg unsettled).trans (by rw [affects])
      rw [dirty]
      intro outcome
      cases outcome with
      | error e => exact ⟨.reading [], .fail rfl, moves_patient.conforms (e := .warn _) trivial fun _ => ⟨[], rfl⟩⟩
      | ok =>
        refine ⟨.reading [], .refresh disabled (fun e member => ?_) (fun d own => ?_), [], rfl⟩
        · obtain ⟨item, listed, rfl⟩ := List.mem_map.1 member
          obtain ⟨d, own, same, rfl⟩ := mem_sessionItems listed
          exact ⟨d, _, List.mem_singleton_self _, same, .byId own ⟨row.role, encoded⟩⟩
        · obtain ⟨item, member, same⟩ := exists_mem_sessionItems bytes now later own
          exact ⟨a.cache.entry item, List.mem_map_of_mem member, same⟩

theorem conforms_createSession (s : Session) : (a.createSession s).run.Conforms
    (Moves a asked (createSession s)) (fun s _ => s.IsReading) .pending := by
  refine conforms_request (w := createSession s) fun row => ?_
  exact conforms_andThen (conforms_cacheSession s row) fun _ => .done _

theorem conforms (w : Write) : (w.perform a).Conforms (Moves a asked w) (fun s _ => s.IsReading) .pending := by
  have ends : ∀ {α : Type} (s : Stance) (_ : α), s.IsReading →
      Program.Conforms (Moves a asked w) (fun s _ => s.IsReading) (Program.done ()) s := fun _ _ reading => reading
  cases w with
  | createUser user hash => exact (conforms_createUser user hash).bind ends
  | updateUser user => exact (conforms_updateUser user).bind ends
  | deleteUser id => exact (conforms_deleteUser id).bind ends
  | updatePassword id hash => exact (conforms_updatePassword id hash).bind ends
  | createSession s => exact (conforms_createSession s).bind ends
  | createGrant g => exact (conforms_createGrant g).bind ends

end Write

end Accounts

end AccountCache
