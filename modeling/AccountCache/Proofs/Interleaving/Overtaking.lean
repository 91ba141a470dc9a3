import AccountCache.Proofs.Interleaving.Recomputation

namespace AccountCache

open Cache (Cached Lock Lookup Manager)

namespace Simulation

/-- What a step of a caller means for the others. Looks at a lock, clocks
and sleep mean nothing to them. -/
inductive Mark where
  | look
  | attempt (granted : Bool)
  | store
  | release
deriving DecidableEq

variable {ι : Type}

def Event.mark? (event : Event ι) : Option (ι × Mark) :=
  match event.effect, event.answer with
  | .cache (.get _), _ => some (event.client, .look)
  | .cache (.acquire ..), .ok (some _) => some (event.client, .attempt true)
  | .cache (.acquire ..), _ => some (event.client, .attempt false)
  | .cache (.set _), _ => some (event.client, .store)
  | .cache (.release _), _ => some (event.client, .release)
  | _, _ => none

def marks (trace : List (Event ι)) : List (ι × Mark) := trace.filterMap Event.mark?

theorem marks_cons_quiet {trace : List (Event ι)} {i : ι} {e : Effect} {answer : e.Answer} (quiet : e.IsQuiet) :
    marks (⟨i, e, answer⟩ :: trace) = marks trace := by
  cases e with
  | cache _ => cases quiet
  | _ => rfl

/-- Whether a caller looks before another stores the value and tries for the
lock after that one has given it back. This is how two callers are granted
the lock one after the other. -/
def Overtaken (history : List (ι × Mark)) : Prop :=
  ∃ i j granted, [(i, .attempt granted), (j, .release), (j, .store), (i, .look)].Sublist history

namespace Standing

def granted? : Standing → Option Lock
  | owner lock | stored lock | released lock => some lock
  | _ => none

def holds? : Standing → Option Lock
  | owner lock | stored lock => some lock
  | _ => none

def HasStored : Standing → Prop
  | stored _ | released _ => True
  | _ => False

theorem HasStored.granted? {s : Standing} (stored : s.HasStored) : ∃ lock, s.granted? = some lock := by
  cases s with
  | stored lock | released lock => exact ⟨lock, rfl⟩
  | _ => cases stored

theorem granted?_of_holds? {s : Standing} {lock : Lock} (holds : s.holds? = some lock) :
    s.granted? = some lock := by
  cases s with
  | owner | stored => exact holds
  | _ => cases holds

theorem eq_released_of_granted? {s : Standing} {lock : Lock} (granted : s.granted? = some lock)
    (free : s.holds? = none) : s = released lock := by
  cases s with
  | released => exact congrArg released (Option.some.inj granted)
  | owner | stored => cases free
  | _ => cases granted

theorem Looks.holds?_eq_none {s : Standing} (looks : s.Looks) : s.holds? = none := by
  cases s with
  | looking | waiting => rfl
  | _ => cases looks

theorem Looks.not_hasStored {s : Standing} (looks : s.Looks) : ¬s.HasStored := by
  cases s with
  | looking | waiting => exact id
  | _ => cases looks

end Standing

/-- What the history tells of where callers stand. -/
structure History (history : List (ι × Mark)) (places : ι → Standing) : Prop where
  granted : ∀ i, (i, .attempt true) ∈ history ↔ ∃ lock, (places i).granted? = some lock
  released : ∀ i, (i, .release) ∈ history → ∃ lock, places i = .released lock
  missed : ∀ i, places i = .missed → (i, .look) ∈ history
  stored : ∀ i j lock, places i = .missed → places j = .stored lock →
    [(j, .store), (i, .look)].Sublist history
  overtaking : ∀ i j lock, places i = .missed → places j = .released lock →
    [(j, .release), (j, .store), (i, .look)].Sublist history
  waiting : ∀ i, places i = .waiting → ∃ j, (j, .attempt true) ∈ history
  overtaken : Overtaken history ↔
    ∃ i j, i ≠ j ∧ (i, .attempt true) ∈ history ∧ (j, .attempt true) ∈ history

theorem Overtaken.cons {history : List (ι × Mark)} (overtaken : Overtaken history) (event : ι × Mark) :
    Overtaken (event :: history) := by
  obtain ⟨i, j, granted, before⟩ := overtaken
  exact ⟨i, j, granted, before.cons event⟩

/-- An event that is no attempt does not make a caller overtake another. -/
theorem overtaken_cons_iff {history : List (ι × Mark)} {i : ι} {mark : Mark}
    (other : ∀ granted, mark ≠ .attempt granted) :
    Overtaken ((i, mark) :: history) ↔ Overtaken history := by
  refine ⟨fun ⟨i', j, granted, order⟩ => ?_, fun overtaken => overtaken.cons _⟩
  cases order with
  | cons _ before => exact ⟨i', j, granted, before⟩
  | cons_cons _ _ => exact absurd rfl (other granted)

theorem overtaken_attempt_iff {history : List (ι × Mark)} {i : ι} {granted : Bool} :
    Overtaken ((i, .attempt granted) :: history) ↔
      Overtaken history ∨ ∃ j, [(j, .release), (j, .store), (i, .look)].Sublist history := by
  constructor
  · rintro ⟨i', j, granted', order⟩
    cases order with
    | cons _ before => exact .inl ⟨i', j, granted', before⟩
    | cons_cons _ before => exact .inr ⟨j, before⟩
  · rintro (overtaken | ⟨j, order⟩)
    · exact overtaken.cons _
    · exact ⟨i, j, granted, order.cons_cons _⟩

namespace History

variable {history : List (ι × Mark)} {places : ι → Standing} {i : ι} {lock : Lock}

theorem start : History ([] : List (ι × Mark)) fun _ => .looking where
  granted := by simp [Standing.granted?]
  released := by simp
  missed := by simp
  stored := by simp
  overtaking := by simp
  waiting := by simp
  overtaken := by simp [Overtaken]

/-- A step that is no attempt makes nobody overtake another and grants
nothing, so that the history still tells where callers stand. -/
theorem overtaken_of_other (h : History history places) {mark : Mark}
    (other : ∀ granted, mark ≠ .attempt granted) :
    Overtaken ((i, mark) :: history) ↔
      ∃ j k, j ≠ k ∧ (j, .attempt true) ∈ (i, mark) :: history ∧
        (k, .attempt true) ∈ (i, mark) :: history := by
  have same : ∀ j, (j, .attempt true) ∈ (i, mark) :: history ↔ (j, .attempt true) ∈ history := by
    intro j
    rw [List.mem_cons, Prod.mk.injEq]
    exact ⟨fun member => member.resolve_left fun eq => other true eq.2.symm, .inr⟩
  rw [overtaken_cons_iff other, h.overtaken]
  simp only [same]

theorem mem_of_released (h : History history places) {j : ι} (released : (j, .release) ∈ history) :
    (∃ lock, places j = .released lock) ∧ (j, .attempt true) ∈ history := by
  obtain ⟨lock, at_⟩ := h.released j released
  exact ⟨⟨lock, at_⟩, (h.granted j).2 ⟨lock, at_ ▸ rfl⟩⟩

variable [DecidableEq ι]

/-- One step of a caller: what it has to meet so that the history tells of
its new standing, too. -/
theorem extend (h : History history places) {mark : Mark} {s : Standing}
    (granted : (mark = .attempt true ∨ ∃ lock, (places i).granted? = some lock) ↔
      ∃ lock, s.granted? = some lock)
    (released : mark = .release ∨ (∃ lock, places i = .released lock) → ∃ lock, s = .released lock)
    (missed : s = .missed → mark = .look ∧ ∀ j, ¬(places j).HasStored)
    (stored : ∀ lock, s = .stored lock → mark = .store)
    (overtaking : ∀ lock, s = .released lock → mark = .release ∧ ∃ lock, places i = .stored lock)
    (waiting : s = .waiting → ∃ j, (j, .attempt true) ∈ (i, mark) :: history)
    (overtaken : Overtaken ((i, mark) :: history) ↔
      ∃ j k, j ≠ k ∧ (j, .attempt true) ∈ (i, mark) :: history ∧ (k, .attempt true) ∈ (i, mark) :: history) :
    History ((i, mark) :: history) (Function.update places i s) where
  granted j := by
    by_cases same : j = i
    · subst same
      rw [Function.update_self, ← granted, ← h.granted, List.mem_cons, Prod.mk.injEq]
      simp only [true_and, eq_comm]
    · rw [Function.update_of_ne same, ← h.granted, List.mem_cons, Prod.mk.injEq]
      simp only [same, false_and, false_or]
  released j member := by
    rw [List.mem_cons, Prod.mk.injEq] at member
    by_cases same : j = i
    · subst same
      rw [Function.update_self]
      refine released ?_
      rcases member with ⟨_, rfl⟩ | before
      · exact .inl rfl
      · exact .inr (h.released j before)
    · rw [Function.update_of_ne same]
      rcases member with ⟨eq, _⟩ | before
      · exact absurd eq same
      · exact h.released j before
  missed j at_ := by
    by_cases same : j = i
    · subst same
      rw [Function.update_self] at at_
      obtain ⟨rfl, _⟩ := missed at_
      exact List.mem_cons_self ..
    · rw [Function.update_of_ne same] at at_
      exact List.mem_cons_of_mem _ (h.missed j at_)
  stored j k lock at_ after := by
    by_cases own : k = i
    · subst own
      rw [Function.update_self] at after
      obtain rfl := stored lock after
      have other : j ≠ k := by
        rintro rfl
        rw [Function.update_self, after] at at_
        cases at_
      rw [Function.update_of_ne other] at at_
      exact (List.singleton_sublist.2 (h.missed j at_)).cons_cons _
    · rw [Function.update_of_ne own] at after
      by_cases same : j = i
      · subst same
        rw [Function.update_self] at at_
        exact absurd (after ▸ trivial) ((missed at_).2 k)
      · rw [Function.update_of_ne same] at at_
        exact (h.stored j k lock at_ after).cons _
  overtaking j k lock at_ after := by
    by_cases own : k = i
    · subst own
      rw [Function.update_self] at after
      obtain ⟨rfl, lock', before⟩ := overtaking lock after
      have other : j ≠ k := by
        rintro rfl
        rw [Function.update_self, after] at at_
        cases at_
      rw [Function.update_of_ne other] at at_
      exact (h.stored j k lock' at_ before).cons_cons _
    · rw [Function.update_of_ne own] at after
      by_cases same : j = i
      · subst same
        rw [Function.update_self] at at_
        exact absurd (after ▸ trivial) ((missed at_).2 k)
      · rw [Function.update_of_ne same] at at_
        exact (h.overtaking j k lock at_ after).cons _
  waiting j at_ := by
    by_cases same : j = i
    · subst same
      rw [Function.update_self] at at_
      exact waiting at_
    · rw [Function.update_of_ne same] at at_
      obtain ⟨k, member⟩ := h.waiting j at_
      exact ⟨k, List.mem_cons_of_mem _ member⟩
  overtaken := overtaken

theorem miss (h : History history places) (looks : (places i).Looks)
    (empty : ∀ j, ¬(places j).HasStored) :
    History ((i, .look) :: history) (Function.update places i .missed) := by
  refine h.extend ?_ ?_ (fun _ => ⟨rfl, empty⟩) nofun nofun nofun (h.overtaken_of_other nofun)
  · cases at_ : places i <;> simp_all [Standing.Looks, Standing.granted?]
  · cases at_ : places i <;> simp_all [Standing.Looks]

theorem hit (h : History history places) (looks : (places i).Looks) (value : Cached) :
    History ((i, .look) :: history) (Function.update places i (.hit value)) := by
  refine h.extend ?_ ?_ nofun nofun nofun nofun (h.overtaken_of_other nofun)
  · cases at_ : places i <;> simp_all [Standing.Looks, Standing.granted?]
  · cases at_ : places i <;> simp_all [Standing.Looks]

theorem store (h : History history places) (at_ : places i = .owner lock) :
    History ((i, .store) :: history) (Function.update places i (.stored lock)) := by
  refine h.extend ?_ ?_ nofun (fun _ _ => rfl) nofun nofun (h.overtaken_of_other nofun)
  · simp [at_, Standing.granted?]
  · simp [at_]

theorem release (h : History history places) (at_ : places i = .stored lock) :
    History ((i, .release) :: history) (Function.update places i (.released lock)) := by
  refine h.extend ?_ (fun _ => ⟨lock, rfl⟩) nofun nofun (fun _ _ => ⟨rfl, lock, at_⟩) nofun
    (h.overtaken_of_other nofun)
  simp [at_, Standing.granted?]

/-- Whoever is granted the lock after another has overtaken it. -/
theorem grant (h : History history places) (at_ : places i = .missed)
    (free : ∀ j, (places j).holds? = none) (lock : Lock) :
    History ((i, .attempt true) :: history) (Function.update places i (.owner lock)) := by
  refine h.extend ?_ ?_ nofun nofun nofun nofun ?_
  · simp [Standing.granted?]
  · simp [at_]
  · rw [overtaken_attempt_iff, h.overtaken]
    constructor
    · rintro (⟨j, k, differ, first, second⟩ | ⟨j, order⟩)
      · exact ⟨j, k, differ, List.mem_cons_of_mem _ first, List.mem_cons_of_mem _ second⟩
      · obtain ⟨⟨_, ended⟩, granted⟩ := h.mem_of_released (order.subset (List.mem_cons_self ..))
        refine ⟨i, j, ?_, List.mem_cons_self .., List.mem_cons_of_mem _ granted⟩
        rintro rfl
        rw [at_] at ended
        cases ended
    · have overtakes : ∀ j, (j, .attempt true) ∈ history →
          ∃ j, [(j, .release), (j, .store), (i, .look)].Sublist history := by
        intro j granted
        obtain ⟨lock, had⟩ := (h.granted j).1 granted
        exact ⟨j, h.overtaking i j lock at_ (Standing.eq_released_of_granted? had (free j))⟩
      rintro ⟨j, k, differ, first, second⟩
      rcases List.mem_cons.1 first with eq | before
      · rcases List.mem_cons.1 second with eq' | before'
        · cases eq
          cases eq'
          exact absurd rfl differ
        · exact .inr (overtakes k before')
      · rcases List.mem_cons.1 second with _ | before'
        · exact .inr (overtakes j before)
        · exact .inl ⟨j, k, differ, before, before'⟩

theorem refuse (h : History history places) (at_ : places i = .missed) {j : ι}
    (held : (places j).holds? = some lock) :
    History ((i, .attempt false) :: history) (Function.update places i .waiting) := by
  have granted := (h.granted j).2 ⟨lock, Standing.granted?_of_holds? held⟩
  refine h.extend ?_ ?_ nofun nofun nofun (fun _ => ⟨j, List.mem_cons_of_mem _ granted⟩) ?_
  · simp [at_, Standing.granted?]
  · simp [at_]
  · have same : ∀ k, (k, .attempt true) ∈ (i, .attempt false) :: history ↔
        (k, .attempt true) ∈ history := by simp
    simp only [same]
    rw [overtaken_attempt_iff, h.overtaken]
    refine ⟨?_, .inl⟩
    rintro (two | ⟨k, order⟩)
    · exact two
    · obtain ⟨⟨_, ended⟩, granted'⟩ := h.mem_of_released (order.subset (List.mem_cons_self ..))
      refine ⟨j, k, ?_, granted, granted'⟩
      rintro rfl
      rw [ended] at held
      cases held

end History

end Simulation

end AccountCache
