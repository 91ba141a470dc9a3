import AccountCache.Proofs.Coherence.Conduct

namespace AccountCache

namespace Accounts

/-- What a session is cached as, at the moments at which the lives of its
tokens are taken. Each copy lives as long as the token that leads to it. -/
def sessionItems (s : Session) (bytes : Bytes) (now later : Timestamp) : List Cache.Item :=
  [⟨Key.token s.accessToken, bytes, s.accessTokenRemaining now⟩,
    ⟨Key.session s.id, bytes, s.accessTokenRemaining now⟩,
    ⟨Key.token s.refreshToken, bytes, s.refreshTokenRemaining later⟩]

theorem mem_sessionItems {s : Session} {bytes : Bytes} {now later : Timestamp} {item : Cache.Item}
    (member : item ∈ sessionItems s bytes now later) : ∃ d ∈ s.data, item.key = d.key ∧ item.value = bytes := by
  simp only [sessionItems, List.mem_cons, List.not_mem_nil, or_false] at member
  rcases member with rfl | rfl | rfl
  · exact ⟨.token s.accessToken, by simp [Session.data], rfl, rfl⟩
  · exact ⟨.session s.id, by simp [Session.data], rfl, rfl⟩
  · exact ⟨.token s.refreshToken, by simp [Session.data], rfl, rfl⟩

theorem exists_mem_sessionItems {s : Session} (bytes : Bytes) (now later : Timestamp) {d : Datum}
    (own : d ∈ s.data) : ∃ item ∈ sessionItems s bytes now later, item.key = d.key := by
  simp only [Session.data, List.mem_cons, List.not_mem_nil, or_false] at own
  rcases own with rfl | rfl | rfl
  · exact ⟨_, List.mem_cons_self .., rfl⟩
  · exact ⟨_, List.mem_cons_of_mem _ (List.mem_cons_self ..), rfl⟩
  · exact ⟨_, List.mem_cons_of_mem _ (List.mem_cons_of_mem _ (List.mem_cons_self ..)), rfl⟩

def cacheItems (a : Accounts) (items : List Cache.Item) : Action Unit := do
  match ← a.cache.storeMany items with
  | .ok _ => return ()
  | .error _ => Action.warn "failed to cache session"

theorem cacheSession_eq (a : Accounts) {s : Session} {bytes : Bytes}
    (encoded : Storable.encode? s = some bytes) :
    a.cacheSession s = (Action.perform .wallClock).bind fun now =>
      (Action.perform .wallClock).bind fun later => a.cacheItems (sessionItems s bytes now later) := by
  unfold cacheSession
  rw [encoded]
  rfl

variable {a : Accounts} {asked : String → TokenType → Prop} {w : Write} {known : List Load} {α β : Type}

namespace Follows

theorem release (lock : Option Cache.Lock) : Follows a asked w known (releaseLoad lock) := by
  cases lock with
  | none => exact done _
  | some lock =>
    refine look trivial fun answer => ?_
    rcases answer with e | _ | _
    · exact quiet (e := .warn _) trivial fun _ => done _
    · exact quiet (e := .warn _) trivial fun _ => done _
    · exact done _

theorem getOrLock (key : String) : Follows a asked w known (a.cache.getOrLock key) := by
  intro more _
  refine (a.cache.conforms_getOrLock_of_looks moves_patient fun r looks answer => .look looks).mono ?_
  rintro _ _ rfl
  exact ⟨more, fun _ => id, rfl⟩

theorem invalidate (keys : List String) : Follows a asked w known (a.invalidate keys) := by
  have warned : ∀ outcome : Except Cache.Error Unit, Follows a asked w known (match outcome with
      | .ok _ => pure ()
      | .error _ => Action.warn "failed to invalidate cache") := by
    intro outcome
    cases outcome with
    | ok => exact done _
    | error e => exact quiet (e := .warn _) trivial fun _ => done _
  rw [Accounts.invalidate, Cache.Manager.delete]
  split
  · exact warned (.ok ())
  · intro more knows answer
    refine ⟨.reading more, ?_, warned answer more knows⟩
    cases answer with
    | ok => exact .drop
    | error e => exact .fail rfl

theorem decode [Storable α] (key : String) (cached : Cache.Cached) :
    Follows a asked w known (a.decode key cached : Operation (Option α)).run := by
  cases cached with
  | absent => exact done _
  | value bytes =>
    rw [Accounts.decode]
    split
    · exact done _
    · refine andThen (lift (quiet (e := .warn _) trivial fun _ => done _)) fun _ => ?_
      exact andThen (lift (invalidate _)) fun _ => done _

/-- A read follows the rules if the load does, whatever the cache says. -/
theorem read [Storable α] (key : String) {load : Operation (Option α)}
    (loads : Follows a asked w known load.run) : Follows a asked w known (a.read key load).run := by
  refine andThen (andThen (bind (getOrLock key) fun _ => done _) fun found => ?_) fun found => ?_
  · cases found with
    | hit cached => exact andThen (decode key cached) fun _ => done _
    | owner | bypass => exact done _
  · cases found with
    | cached value => exact done _
    | load lock => exact andThen (lift loads) fun _ => andThen (lift (release lock)) fun _ => done _

/-- What is told may be cached. -/
theorem store (item : Cache.Item) {f : Except Cache.Error Unit → Action α} (told : Told known (a.cache.entry item))
    (rest : ∀ outcome, Follows a asked w known (f outcome)) :
    Follows a asked w known ((a.cache.store item).bind f) := by
  rw [Cache.Manager.store]
  split
  · exact rest _
  · next enabled =>
    intro more knows answer
    refine ⟨.reading more, ?_, rest answer more knows⟩
    cases answer with
    | error e => exact .fail rfl
    | ok =>
      obtain ⟨d, l, member, same, tells⟩ := told
      exact .fill (Bool.eq_false_iff.2 enabled) (a.cache.seconds_ne_zero _) ⟨d, l, knows member, same, tells⟩

variable {l : Load} (d : Datum)

theorem fill [Storable α] {value : α} (told : ∀ bytes, Storable.encode? value = some bytes →
    ∃ l ∈ known, l.Tells d bytes) : Follows a asked w known (a.fill d.key value) := by
  rw [Accounts.fill]
  split
  · exact quiet (e := .warn _) trivial fun _ => done _
  · next bytes encoded =>
    obtain ⟨l, member, tells⟩ := told bytes encoded
    refine store _ ⟨d, l, member, rfl, tells⟩ fun outcome => ?_
    cases outcome with
    | ok => exact done _
    | error e => exact quiet (e := .warn _) trivial fun _ => done _

theorem fillAbsent (told : ∃ l ∈ known, l.Tells d Cache.nilBytes) :
    Follows a asked w known (a.fillAbsent d.key) := by
  obtain ⟨l, member, tells⟩ := told
  refine store _ ⟨d, l, member, rfl, tells⟩ fun outcome => ?_
  cases outcome with
  | ok => exact done _
  | error e => exact quiet (e := .warn _) trivial fun _ => done _

theorem fillFound [Storable α] {found : Option α} (told : ∀ bytes, recorded? found = some bytes →
    ∃ l ∈ known, l.Tells d bytes) : Follows a asked w known (a.fillFound d.key found).run := by
  cases found with
  | none => exact andThen (lift (fillAbsent d (told _ rfl))) fun _ => done _
  | some value => exact andThen (lift (fill d told)) fun _ => done _

theorem findUser (id : Uuid) : Follows a asked w known (a.findUser id).run :=
  read _ (load rfl (fun _ => nofun) fun _ =>
    fillFound (.user id) fun _ recorded => ⟨_, List.mem_cons_self .., .user recorded⟩)

theorem findUserId (address : String) : Follows a asked w known (a.findUserId address).run :=
  read _ (load rfl (fun _ => nofun) fun _ =>
    fillFound (.email address) fun _ recorded => ⟨_, List.mem_cons_self .., .email recorded⟩)

theorem findUserByEmail (address : String) : Follows a asked w known (a.findUserByEmail address).run := by
  refine andThen (findUserId address) fun found => ?_
  cases found with
  | none => exact done _
  | some id => exact findUser id

theorem findPassword (id : Uuid) : Follows a asked w known (a.findPassword id).run :=
  read _ (load rfl (fun _ => nofun) fun _ =>
    fillFound (.password id) fun _ recorded => ⟨_, List.mem_cons_self .., .password recorded⟩)

theorem loadPermission : Follows a asked w known a.loadPermission.run := by
  refine andThen (read _ (load rfl (fun _ => nofun) fun grants => ?_)) fun _ => done _
  refine andThen (lift (store _ ⟨.permission, _, List.mem_cons_self .., rfl, .permission⟩ fun outcome => ?_))
    fun _ => done _
  cases outcome with
  | ok => exact done _
  | error e => exact quiet (e := .warn _) trivial fun _ => done _

theorem cacheItems (items : List Cache.Item) (told : ∀ item ∈ items, Told known (a.cache.entry item)) :
    Follows a asked w known (a.cacheItems items) := by
  rw [Accounts.cacheItems, Cache.Manager.storeMany]
  split
  · exact done _
  · next filled =>
    have enabled : a.cache.policy.disabled = false := by
      cases disabled : a.cache.policy.disabled with
      | false => rfl
      | true => exact absurd (by rw [disabled, Bool.true_or]) filled
    intro more knows answer
    have entries : ∀ e ∈ items.map a.cache.entry, Told more e := by
      intro e member
      obtain ⟨item, member', rfl⟩ := List.mem_map.1 member
      obtain ⟨d, l, known, same, tells⟩ := told item member'
      exact ⟨d, l, knows known, same, tells⟩
    cases answer with
    | ok => exact ⟨.reading more, .fillMany enabled entries, more, fun _ => id, rfl⟩
    | error e =>
      exact ⟨.reading more, .fail rfl, moves_patient.conforms (e := .warn _) trivial fun _ =>
        ⟨more, fun _ => id, rfl⟩⟩

theorem cacheSession {s : Session} (told : ∀ bytes, Storable.encode? s = some bytes → ∀ d ∈ s.data,
    ∃ l ∈ known, l.Tells d bytes) : Follows a asked w known (a.cacheSession s) := by
  cases encoded : Storable.encode? s with
  | none =>
    unfold Accounts.cacheSession
    rw [encoded]
    exact quiet (e := .warn _) trivial fun _ => done _
  | some bytes =>
    rw [cacheSession_eq a encoded]
    refine quiet (e := .wallClock) trivial fun now => quiet (e := .wallClock) trivial fun later => ?_
    refine cacheItems _ fun item member => ?_
    obtain ⟨d, own, same, rfl⟩ := mem_sessionItems member
    obtain ⟨l, known, tells⟩ := told _ encoded d own
    exact ⟨d, l, known, same, tells⟩

theorem completeSession (type : TokenType) (token : String) (found : Option Session) :
    Follows a asked w (⟨.findSessionByToken type token, found⟩ :: known)
      (a.completeSession (Key.token token) found).run := by
  cases found with
  | none =>
    exact andThen (lift (fillAbsent (.token token) ⟨_, List.mem_cons_self .., .noToken⟩)) fun _ => done _
  | some s =>
    refine andThen (findUser s.userId) fun owner => ?_
    cases owner with
    | none => exact andThen (lift (quiet (e := .warn _) trivial fun _ => done _)) fun _ => done _
    | some user =>
      refine andThen (lift (cacheSession fun bytes encoded d own => ?_)) fun _ => done _
      exact ⟨_, List.mem_cons_self .., .byToken own ⟨user.role, encoded⟩⟩

theorem findSessionByToken {type : TokenType} {token : String} (asks : asked token type) :
    Follows a asked w known (a.findSessionByToken type token).run := by
  refine read _ (load rfl (fun _ type' token' same => ?_) fun found => completeSession type token found)
  cases same
  exact asks

end Follows

theorem Read.conforms (r : Read) (asks : ∀ type token, r = session type token → asked token type) :
    (r.perform a).Conforms (Stance.Moves a asked w) (fun s _ => s.IsReading) (.reading []) := by
  refine Follows.conforms ?_ []
  cases r with
  | user id => exact (Follows.findUser id).bind fun _ => .done ()
  | userByEmail address => exact (Follows.findUserByEmail address).bind fun _ => .done ()
  | password id => exact (Follows.findPassword id).bind fun _ => .done ()
  | session type token => exact (Follows.findSessionByToken (asks type token rfl)).bind fun _ => .done ()
  | permission => exact Follows.loadPermission.bind fun _ => .done ()

end Accounts

end AccountCache
