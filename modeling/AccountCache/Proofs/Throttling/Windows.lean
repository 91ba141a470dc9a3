import AccountCache.Proofs.Limits.Lives
import AccountCache.Proofs.Moments.AtOnce

namespace AccountCache

open Cache (Stored MemoryStore longest)

/-- A login with an email that failed at some moment. -/
structure Failure where
  address : String
  moment : Instant

def failures (address : String) (log : List Failure) : List Instant :=
  (log.filter (·.address = address)).map (·.moment)

/-- Whether the window that the last of some failures opened is open at a
moment. Every failure gives it its full time anew. -/
def IsOpen (lockTtl : Duration) (now : Instant) (failures : List Instant) : Prop :=
  ∃ last ∈ failures.head?, now < last.after lockTtl

instance (lockTtl : Duration) (now : Instant) (failures : List Instant) : Decidable (IsOpen lockTtl now failures) :=
  inferInstanceAs (Decidable (∃ last ∈ failures.head?, now < last.after lockTtl))

/-- How many failures there were since the last that came while no window
was open, that one included. -/
def countFailures (lockTtl : Duration) : List Instant → Nat
  | [] => 0
  | last :: earlier => if IsOpen lockTtl last earlier then countFailures lockTtl earlier + 1 else 1

/-- The entry that counts some failures, while a window is open. -/
def tally? (lockTtl : Duration) (now : Instant) (failures : List Instant) : Option Stored :=
  if IsOpen lockTtl now failures then
    some ⟨.ofText (toString (countFailures lockTtl failures : Int)), failures.head?.map (·.after lockTtl)⟩
  else none

variable {lockTtl : Duration} {now later last : Instant} {address : String} {log : List Failure}
  {moments : List Instant}

theorem failures_cons_self (address : String) (moment : Instant) (log : List Failure) :
    failures address (⟨address, moment⟩ :: log) = moment :: failures address log := by
  simp [failures]

theorem failures_cons_of_ne {failure : Failure} (other : failure.address ≠ address) :
    failures address (failure :: log) = failures address log := by
  simp [failures, other]

theorem length_failures_le (address : String) (log : List Failure) : (failures address log).length ≤ log.length := by
  rw [failures, List.length_map]
  exact List.length_filter_le ..

theorem exists_of_mem_failures {moment : Instant} (member : moment ∈ failures address log) :
    ∃ failure ∈ log, failure.moment = moment := by
  obtain ⟨failure, told, same⟩ := List.mem_map.1 member
  exact ⟨failure, (List.mem_filter.1 told).1, same⟩

@[simp] theorem not_isOpen_nil : ¬IsOpen lockTtl now [] := by
  simp [IsOpen]

@[simp] theorem isOpen_cons : IsOpen lockTtl now (last :: moments) ↔ now < last.after lockTtl := by
  simp [IsOpen]

theorem IsOpen.of_le (isOpen : IsOpen lockTtl later moments) (order : now ≤ later) : IsOpen lockTtl now moments := by
  obtain ⟨last, latest, early⟩ := isOpen
  exact ⟨last, latest, Instant.lt_of_le_of_lt order early⟩

theorem countFailures_le_length (lockTtl : Duration) (moments : List Instant) :
    countFailures lockTtl moments ≤ moments.length := by
  induction moments with
  | nil => exact Nat.le_refl 0
  | cons last earlier ih =>
    rw [countFailures, List.length_cons]
    split
    · omega
    · omega

/-- The counter of a window that closes is gone, and until then it
stays as it is. -/
theorem tally?_of_le (order : now ≤ later) :
    tally? lockTtl later moments = (tally? lockTtl now moments).filter fun e => !e.isExpired later := by
  cases moments with
  | nil => simp [tally?]
  | cons last earlier =>
    by_cases isOpen : IsOpen lockTtl later (last :: earlier)
    · have before := isOpen.of_le order
      have fresh := isOpen_cons.1 isOpen
      simp only [tally?, if_pos isOpen, if_pos before, Option.filter_some, Stored.isExpired, List.head?_cons,
        Option.map_some, Option.any_some, decide_eq_false (Instant.not_le.2 fresh), Bool.not_false, if_true]
    · rw [tally?, if_neg isOpen, tally?]
      split
      · have closed := Instant.not_lt.1 (isOpen_cons.not.1 isOpen)
        simp [Option.filter_some, Stored.isExpired, closed]
      · rfl

theorem tally?_cons_self (lasting : lockTtl.nanos ≠ 0) (now : Instant) (moments : List Instant) :
    tally? lockTtl now (now :: moments) =
      some ⟨.ofText (toString (countFailures lockTtl (now :: moments) : Int)), some (now.after lockTtl)⟩ := by
  have isOpen : IsOpen lockTtl now (now :: moments) := by
    simp only [isOpen_cons, Instant.lt_def, Instant.after]
    omega
  rw [tally?, if_pos isOpen]
  rfl

/-- How many failures the counter stands for at a moment, which are none if
no window is open. -/
def standing (lockTtl : Duration) (now : Instant) (moments : List Instant) : Nat :=
  if IsOpen lockTtl now moments then countFailures lockTtl moments else 0

theorem tally?_stands (lockTtl : Duration) (now : Instant) (moments : List Instant) :
    tally? lockTtl now moments = none ∧ (standing lockTtl now moments : Int) = 0 ∨ ∃ deadline,
      tally? lockTtl now moments = some ⟨.ofText (toString (standing lockTtl now moments : Int)), deadline⟩ := by
  rw [tally?, standing]
  split
  · exact .inr ⟨_, rfl⟩
  · exact .inl ⟨rfl, rfl⟩

/-- A failure counts one more than the counter stands for. -/
theorem countFailures_cons (lockTtl : Duration) (now : Instant) (moments : List Instant) :
    countFailures lockTtl (now :: moments) = standing lockTtl now moments + 1 := by
  rw [countFailures, standing]
  split
  · rfl
  · rfl

theorem standing_le_length (lockTtl : Duration) (now : Instant) (moments : List Instant) :
    standing lockTtl now moments ≤ moments.length := by
  rw [standing]
  split
  · exact countFailures_le_length lockTtl moments
  · exact Nat.zero_le _

end AccountCache
