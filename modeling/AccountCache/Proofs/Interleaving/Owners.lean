import AccountCache.Proofs.Interleaving.Overtaking

namespace AccountCache

open Cache (Cached Lock Lookup Manager)

namespace Simulation

variable {ι : Type}

/-- The lock of the key is held by the one caller that holds it. -/
structure Locking (key : String) (w : World) (places : ι → Standing) : Prop where
  keyed : ∀ i lock, (places i).holds? = some lock → lock.cacheKey = key
  free : w.guard? key = none → ∀ i, (places i).holds? = none
  held : ∀ guard, w.guard? key = some guard → ∃ i lock, (places i).holds? = some lock ∧
    guard.value = .ofText lock.token ∧ ∀ j, (places j).holds? ≠ none → j = i

/-- The entry of the key, and whatever was hit, was stored by a caller. -/
structure Filling (key : String) (value : ι → Bytes) (w : World) (places : ι → Standing) : Prop where
  empty : w.cached? key = none → ∀ i, ¬(places i).HasStored
  filled : ∀ e, w.cached? key = some e → ∃ i, (places i).HasStored ∧ e.value = value i
  hit : ∀ i cached, places i = .hit cached → ∃ j, (places j).HasStored ∧ cached = .ofBytes (value j)

variable {key : String} {value : ι → Bytes} {w w' : World} {places places' : ι → Standing} {i : ι} {lock : Lock}

theorem Locking.congr (h : Locking key w places) (guard : w'.guard? key = w.guard? key) :
    Locking key w' places where
  keyed := h.keyed
  free none := h.free (guard ▸ none)
  held entry found := h.held entry (guard ▸ found)

theorem Filling.congr (h : Filling key value w places) (entry : w'.cached? key = w.cached? key) :
    Filling key value w' places where
  empty none := h.empty (entry ▸ none)
  filled e found := h.filled e (entry ▸ found)
  hit := h.hit

theorem Locking.owns (h : Locking key w places) (holds : (places i).holds? = some lock) :
    (w.guard? key).map (·.value) = some (.ofText lock.token) := by
  cases found : w.guard? key with
  | none =>
    rw [h.free found i] at holds
    cases holds
  | some guard =>
    obtain ⟨j, lock', holds', token, only⟩ := h.held guard found
    obtain rfl := only i (by rw [holds]; nofun)
    obtain rfl := Option.some.inj (holds.symm.trans holds')
    rw [Option.map_some, token]

/-- What is true of callers of one key at all times: what the history tells,
who holds the lock, and whose value is cached. -/
structure Order (key : String) (value : ι → Bytes) (trace : List (Event ι)) (w : World)
    (places : ι → Standing) : Prop where
  reliable : w.Reliable
  sound : ∀ i, places i ≠ .failed
  locking : Locking key w places
  filling : Filling key value w places
  history : History (marks trace) places

def Granted (trace : List (Event ι)) (i : ι) : Prop := (i, .attempt true) ∈ marks trace

/-- What a caller has found when it returns. -/
theorem Order.returned {trace : List (Event ι)} {found : Except Cache.Error Lookup}
    (order : Order key value trace w places) (ends : (places i).Ends key found) :
    (Granted trace i ∧ ∃ lock, found = .ok (.owner lock)) ∨
      (¬Granted trace i ∧ ((∃ j, Granted trace j ∧ found = .ok (.hit (.ofBytes (value j)))) ∨
        ∃ waited, found = .error (.waitTooLong key waited))) := by
  have granted := order.history.granted i
  generalize at_ : places i = s at ends granted
  cases s with
  | released lock =>
    exact .inl ⟨granted.2 ⟨lock, rfl⟩, lock, ends⟩
  | hit cached =>
    obtain ⟨j, stored, rfl⟩ := order.filling.hit i cached at_
    have ofOwner := (order.history.granted j).2 stored.granted?
    exact .inr ⟨fun own => (nomatch granted.1 own), .inl ⟨j, ofOwner, ends⟩⟩
  | waiting => exact .inr ⟨fun own => (nomatch granted.1 own), .inr ends⟩
  | failed => exact absurd at_ (order.sound i)
  | _ => cases ends

theorem Order.exists_granted {trace : List (Event ι)} {found : Except Cache.Error Lookup}
    (order : Order key value trace w places) (ends : (places i).Ends key found) :
    ∃ j, Granted trace j := by
  generalize at_ : places i = s at ends
  cases s with
  | released lock => exact ⟨i, (order.history.granted i).2 ⟨lock, at_ ▸ rfl⟩⟩
  | hit cached =>
    obtain ⟨j, stored, _⟩ := order.filling.hit i cached at_
    exact ⟨j, (order.history.granted j).2 stored.granted?⟩
  | waiting => exact order.history.waiting i at_
  | failed => exact absurd at_ (order.sound i)
  | _ => cases ends

theorem Order.wait {trace : List (Event ι)} {later : Instant} (order : Order key value trace w places)
    (lasts : w.Lasts later) : Order key value trace (w.advanceTo later) places where
  reliable := order.reliable.advanceTo later
  sound := order.sound
  locking := order.locking.congr (lasts key).2
  filling := order.filling.congr (lasts key).1
  history := order.history

section

variable [DecidableEq ι] {s : Standing}

/-- A step that neither takes nor gives back a lock keeps the lock with the
one caller that holds it. -/
theorem Locking.step (h : Locking key w places) (guard : w'.guard? key = w.guard? key)
    (keeps : s.holds? = (places i).holds?) : Locking key w' (Function.update places i s) := by
  have same : ∀ j, (Function.update places i s j).holds? = (places j).holds? := by
    intro j
    by_cases here : j = i
    · subst here
      rw [Function.update_self, keeps]
    · rw [Function.update_of_ne here]
  have after := h.congr guard
  exact ⟨fun j => same j ▸ after.keyed j, fun none j => (same j).trans (after.free none j),
    by simpa only [same] using after.held⟩

/-- A step that stores nothing and is no hit. -/
theorem Filling.step (h : Filling key value w places) (entry : w'.cached? key = w.cached? key)
    (keeps : s.HasStored ↔ (places i).HasStored) (other : ∀ cached, s ≠ .hit cached) :
    Filling key value w' (Function.update places i s) := by
  have same : ∀ j, (Function.update places i s j).HasStored ↔ (places j).HasStored := by
    intro j
    by_cases here : j = i
    · subst here
      rw [Function.update_self, keeps]
    · rw [Function.update_of_ne here]
  have after := h.congr entry
  refine ⟨fun none j => (same j).not.2 (after.empty none j), by simpa only [same] using after.filled,
    fun j cached at_ => ?_⟩
  simp only [same]
  by_cases here : j = i
  · subst here
    rw [Function.update_self] at at_
    exact absurd at_ (other cached)
  · rw [Function.update_of_ne here] at at_
    exact h.hit j cached at_

theorem Locking.grant (h : Locking key w places) (free : w.guard? key = none) {guard : Cache.Stored}
    (taken : w'.guard? key = some guard) (token : guard.value = .ofText lock.token)
    (keyed : lock.cacheKey = key) : Locking key w' (Function.update places i (.owner lock)) where
  keyed j lock' holds := by
    by_cases same : j = i
    · subst same
      rw [Function.update_self] at holds
      exact Option.some.inj holds ▸ keyed
    · rw [Function.update_of_ne same] at holds
      exact h.keyed j lock' holds
  free none := by
    rw [taken] at none
    cases none
  held entry found := by
    obtain rfl := Option.some.inj (taken.symm.trans found)
    refine ⟨i, lock, by rw [Function.update_self]; rfl, token, fun j holds => ?_⟩
    by_contra differ
    rw [Function.update_of_ne differ] at holds
    exact holds (h.free free j)

theorem Locking.release (h : Locking key w places) (holds : (places i).holds? = some lock)
    (gone : w'.guard? key = none) : Locking key w' (Function.update places i (.released lock)) where
  keyed j lock' holds' := by
    by_cases same : j = i
    · subst same
      rw [Function.update_self] at holds'
      cases holds'
    · rw [Function.update_of_ne same] at holds'
      exact h.keyed j lock' holds'
  free _ j := by
    by_cases same : j = i
    · subst same
      rw [Function.update_self]
      rfl
    · rw [Function.update_of_ne same]
      cases found : w.guard? key with
      | none => exact h.free found j
      | some guard =>
        obtain ⟨k, _, _, _, only⟩ := h.held guard found
        have here := only i (by rw [holds]; nofun)
        by_contra other
        exact same ((only j other).trans here.symm)
  held entry found := by
    rw [gone] at found
    cases found

theorem Filling.look (h : Filling key value w places) {e : Cache.Stored} (found : w.cached? key = some e)
    (looks : (places i).Looks) (entry : w'.cached? key = w.cached? key) :
    Filling key value w' (Function.update places i (.hit (.ofBytes e.value))) := by
  have same : ∀ j, (Function.update places i (.hit (.ofBytes e.value)) j).HasStored ↔
      (places j).HasStored := by
    intro j
    by_cases eq : j = i
    · subst eq
      rw [Function.update_self]
      cases at_ : places j <;> simp_all [Standing.Looks, Standing.HasStored]
    · rw [Function.update_of_ne eq]
  refine ⟨fun none => ?_, fun e' found' => ?_, fun j cached at_ => ?_⟩
  · rw [entry, found] at none
    cases none
  · simp only [same]
    exact h.filled e' (entry ▸ found')
  · simp only [same]
    by_cases eq : j = i
    · subst eq
      rw [Function.update_self] at at_
      obtain ⟨k, stored, eq⟩ := h.filled e found
      cases at_
      exact ⟨k, stored, by rw [eq]⟩
    · rw [Function.update_of_ne eq] at at_
      exact h.hit j cached at_

theorem Filling.store (h : Filling key value w places) {e : Cache.Stored} (found : w'.cached? key = some e)
    (stored : e.value = value i) (at_ : places i = .owner lock) :
    Filling key value w' (Function.update places i (.stored lock)) where
  empty none := by
    rw [found] at none
    cases none
  filled e' found' := by
    obtain rfl := Option.some.inj (found.symm.trans found')
    exact ⟨i, by rw [Function.update_self]; trivial, stored⟩
  hit j cached at' := by
    have other : j ≠ i := by
      rintro rfl
      rw [Function.update_self] at at'
      cases at'
    rw [Function.update_of_ne other] at at'
    obtain ⟨k, had, eq⟩ := h.hit j cached at'
    have differ : k ≠ i := by
      rintro rfl
      rw [at_] at had
      exact had
    exact ⟨k, by rwa [Function.update_of_ne differ], eq⟩

theorem Order.step {trace : List (Event ι)} {e : Effect} {answer : e.Answer} {s : Standing}
    (order : Order key value trace w places) (answers : w.Answers e answer w')
    (move : Standing.Moves key (value i) (places i) e answer s) :
    Order key value (⟨i, e, answer⟩ :: trace) w' (Function.update places i s) := by
  have sound : s ≠ .failed → ∀ j, Function.update places i s j ≠ .failed := by
    intro here j
    by_cases same : j = i
    · subst same
      rwa [Function.update_self]
    · rw [Function.update_of_ne same]
      exact order.sound j
  generalize at_ : places i = s₀ at move
  cases move with
  | miss looks =>
    obtain ⟨reliable, found, entries, guard⟩ := order.reliable.get answers
    have none : w.cached? key = none := by simpa using found.symm
    have looks' := at_ ▸ looks
    exact ⟨reliable, sound nofun, order.locking.step guard looks'.holds?_eq_none.symm,
      order.filling.step (entries key) (iff_of_false id looks'.not_hasStored) nofun,
      order.history.miss looks' (order.filling.empty none)⟩
  | @hit _ bytes looks =>
    obtain ⟨reliable, found, entries, guard⟩ := order.reliable.get answers
    obtain ⟨e, entry, rfl⟩ : ∃ e, w.cached? key = some e ∧ e.value = bytes := by simpa using found.symm
    have looks' := at_ ▸ looks
    exact ⟨reliable, sound nofun, order.locking.step guard looks'.holds?_eq_none.symm,
      order.filling.look entry looks' (entries key), order.history.hit looks' _⟩
  | @grant expiry tries lock lasting =>
    obtain ⟨reliable, entries, ⟨_, refused, _⟩ | ⟨lock', guard, granted, keyed, free, taken, token⟩⟩ :=
      order.reliable.acquire answers lasting
    · cases refused
    · cases granted
      exact ⟨reliable, sound nofun, order.locking.grant free taken token keyed,
        order.filling.step (entries key (Key.lock_ne key).symm) (by rw [at_]; exact Iff.rfl) nofun,
        order.history.grant at_ (order.locking.free free) lock⟩
  | refuse lasting =>
    obtain ⟨reliable, entries, ⟨guard, _, held, holds⟩ | ⟨_, _, granted, _⟩⟩ :=
      order.reliable.acquire answers lasting
    · obtain ⟨j, lock, holder, _⟩ := order.locking.held guard held
      exact ⟨reliable, sound nofun, order.locking.step (holds.trans held.symm) (by rw [at_]; rfl),
        order.filling.step (entries key (Key.lock_ne key).symm) (by rw [at_]; exact Iff.rfl) nofun,
        order.history.refuse at_ holder⟩
    · cases granted
  | probe =>
    obtain ⟨reliable, _, entries, guard⟩ := order.reliable.isHeld answers
    rw [← at_, Function.update_eq_self]
    exact ⟨reliable, order.sound, order.locking.congr guard,
      order.filling.congr (entries key (Key.lock_ne key).symm), order.history⟩
  | @store lock seconds positive =>
    obtain ⟨reliable, _, _, entry, guard⟩ := order.reliable.set answers positive
    exact ⟨reliable, sound nofun, order.locking.step guard (by rw [at_]; rfl),
      order.filling.store entry rfl at_, order.history.store at_⟩
  | @release lock gone =>
    obtain ⟨reliable, entries, _, gone⟩ := order.reliable.release answers
    have holds : (places i).holds? = some lock := by rw [at_]; rfl
    obtain rfl := order.locking.keyed i lock holds
    have free := gone (order.locking.owns holds)
    exact ⟨reliable, sound nofun, order.locking.release holds free,
      order.filling.step (entries _ (Key.lock_ne _).symm) (by rw [at_]; exact Iff.rfl) nofun,
      order.history.release at_⟩
  | fail plain =>
    rw [order.reliable.isIncrement_of_error answers] at plain
    cases plain
  | failed => exact absurd at_ (order.sound i)
  | quiet quiet =>
    rw [← at_, Function.update_eq_self, answers.eq_of_isQuiet quiet]
    refine ⟨order.reliable, order.sound, order.locking, order.filling, ?_⟩
    rw [marks_cons_quiet quiet]
    exact order.history

theorem Interleaved.order {m : Manager} {ttl : ι → Duration} {world : World} {trace : List (Event ι)}
    {ps : ι → Action (Except Cache.Error Lookup)}
    (run : Interleaved World.Lasts world (fun i => recompute m key (value i) (ttl i)) trace w ps)
    (enabled : m.policy.disabled = false) (reliable : world.Reliable)
    (uncached : world.cached? key = none) (unlocked : world.guard? key = none) :
    ∃ places, Order key value trace w places ∧
      ∀ i, (ps i).Conforms (Standing.Moves key (value i)) (Standing.Ends key) (places i) := by
  refine run.invariant (Order key value) (fun i => Standing.Moves key (value i)) (fun _ => .looking) ?_
    (fun i => Standing.conforms_recompute m enabled (ttl i)) Order.wait Order.step
  refine ⟨reliable, fun _ => nofun, ⟨fun _ _ => nofun, fun _ _ => rfl, ?_⟩, ⟨fun _ _ => id, ?_, fun _ _ => nofun⟩,
    .start⟩
  · intro guard found
    rw [unlocked] at found
    cases found
  · intro e found
    rw [uncached] at found
    cases found

/-- Callers of a disabled manager ask for nothing. -/
theorem Interleaved.eq_of_disabled {mayPass : World → Instant → Prop} {m : Manager} {ttl : ι → Duration}
    {world : World} {trace : List (Event ι)} {ps : ι → Action (Except Cache.Error Lookup)}
    (run : Interleaved mayPass world (fun i => recompute m key (value i) (ttl i)) trace w ps)
    (disabled : m.policy.disabled = true) : trace = [] ∧ ps = fun _ => .done (.ok .bypass) := by
  induction run with
  | start =>
    refine ⟨rfl, funext fun i => ?_⟩
    simp [recompute, Manager.getOrLock, disabled]
  | wait _ _ ih => exact ih
  | step i _ asks _ ih =>
    rw [ih.2] at asks
    cases asks

/-- Of callers of one key that no one has cached or locked, each that
returns has got the lock, or finds a value that one with the lock stored, or
gives up. As soon as one returns, exactly one has got the lock unless one
has overtaken another or the manager is disabled. -/
theorem recomputed_once_iff {m : Manager} {ttl : ι → Duration} {world : World} {trace : List (Event ι)}
    {ps : ι → Action (Except Cache.Error Lookup)}
    (run : Interleaved World.Lasts world (fun i => recompute m key (value i) (ttl i)) trace w ps)
    (reliable : world.Reliable) (uncached : world.cached? key = none) (unlocked : world.guard? key = none) :
    (m.policy.disabled = false → ∀ i found, ps i = .done found →
      (Granted trace i ∧ ∃ lock, found = .ok (.owner lock)) ∨
      (¬Granted trace i ∧ ((∃ j, Granted trace j ∧ found = .ok (.hit (.ofBytes (value j)))) ∨
        ∃ waited, found = .error (.waitTooLong key waited)))) ∧
    ((∃ i found, ps i = .done found) →
      ((∃! i, Granted trace i) ↔ m.policy.disabled = false ∧ ¬Overtaken (marks trace))) := by
  refine ⟨fun enabled i found ended => ?_, fun ⟨i, found, ended⟩ => ?_⟩
  · obtain ⟨places, order, conform⟩ := run.order enabled reliable uncached unlocked
    have ends := conform i
    rw [ended] at ends
    exact order.returned ends
  · cases enabled : m.policy.disabled with
    | true =>
      obtain ⟨rfl, _⟩ := run.eq_of_disabled enabled
      simp [Granted, marks]
    | false =>
      obtain ⟨places, order, conform⟩ := run.order enabled reliable uncached unlocked
      have ends := conform i
      rw [ended] at ends
      obtain ⟨owner, granted⟩ := order.exists_granted ends
      rw [order.history.overtaken]
      constructor
      · rintro ⟨only, _, unique⟩
        refine ⟨rfl, fun ⟨j, k, differ, first, second⟩ => differ ?_⟩
        rw [unique j first, unique k second]
      · rintro ⟨_, alone⟩
        refine ⟨owner, granted, fun j other => ?_⟩
        by_contra differ
        exact alone ⟨j, owner, differ, other, granted⟩

end

/-- One caller computes the value and another finds it. -/
theorem recomputed_once_iff_in_turn :
    ∃ trace w, ∃ ps : Bool → Action (Except Cache.Error Lookup),
      Interleaved World.Lasts {} (fun _ => recompute default "k" (.ofText "v") .zero) trace w ps ∧
      (∃! i, Granted trace i) ∧ ps false = .done (.ok (.hit (.value (.ofText "v")))) := by
  have fresh : Interleaved World.Lasts {} (fun _ : Bool => recompute default "k" (.ofText "v") .zero) [] {} _ :=
    .start
  have looked := fresh.call true rfl _ rfl
  have granted := looked.call true rfl _ rfl
  have stored := granted.call true rfl _ rfl
  have released := stored.call true rfl (.ok true) rfl
  have hit := released.call false rfl _ rfl
  have once := (recomputed_once_iff hit ⟨⟨_, _, rfl⟩, fun _ => rfl⟩ rfl rfl).2 ⟨true, _, rfl⟩
  have order : ¬Overtaken [(false, .look), (true, .release), (true, .store), (true, .attempt true),
      (true, .look)] := by
    unfold Overtaken
    decide
  exact ⟨_, _, _, hit, once.2 ⟨rfl, order⟩, rfl⟩

/-- One caller looks, then another computes the value, and then the first
one computes it again. -/
theorem recomputed_twice :
    ∃ trace w, ∃ ps : Bool → Action (Except Cache.Error Lookup),
      Interleaved World.Lasts {} (fun _ => recompute default "k" (.ofText "v") .zero) trace w ps ∧
      ({} : World).Reliable ∧ ({} : World).cached? "k" = none ∧ ({} : World).guard? "k" = none ∧
      ∀ i, ∃ lock, ps i = .done (.ok (.owner lock)) := by
  have fresh : Interleaved World.Lasts {} (fun _ : Bool => recompute default "k" (.ofText "v") .zero) [] {} _ :=
    .start
  have early := fresh.call false rfl _ rfl
  have looked := early.call true rfl _ rfl
  have granted := looked.call true rfl _ rfl
  have stored := granted.call true rfl _ rfl
  have released := stored.call true rfl (.ok true) rfl
  have grantedTwice := released.call false rfl _ rfl
  have storedTwice := grantedTwice.call false rfl _ rfl
  have ended := storedTwice.call false rfl (.ok true) rfl
  refine ⟨_, _, _, ended, ⟨⟨_, _, rfl⟩, fun _ => rfl⟩, rfl, rfl, fun i => ?_⟩
  cases i with
  | false => exact ⟨_, rfl⟩
  | true => exact ⟨_, rfl⟩

end Simulation

end AccountCache
