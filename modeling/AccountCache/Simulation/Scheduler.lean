import AccountCache.Program.Descent
import AccountCache.Simulation.Trace
import AccountCache.Simulation.World

namespace AccountCache

namespace Simulation

/-- An operation on its way. It runs until it has to wait, so that nothing
comes between two requests which it can make without waiting. -/
structure Task (α : Type) where
  id : Nat
  program : Action α
  wake : Option Instant
  /-- Of tasks that wake together, the one that began to wait first
  goes first. -/
  turn : Nat
  fault : Option Database.Error
  trace : Trace

/-- How an operation ended: with a value, or broken off because the clock
cannot represent a moment. -/
structure Report (α : Type) where
  outcome : Option α
  trace : Trace

structure Scheduler (α : Type) where
  world : World
  tasks : List (Task α) := []
  ended : List (Nat × Report α) := []
  count : Nat := 0

variable {α : Type}

namespace Task

/-- Lets a task wait until a moment, which is rounded up to a whole
millisecond. -/
def waitUntil (t : Task α) (now wake : Instant) (turn : Nat) : Task α :=
  if now < wake.roundUp then { t with wake := some wake.roundUp, turn } else { t with wake := none }

/-- Begins the request that a task makes now: sleep starts, and the
database is called. -/
def prepare (t : Task α) (w : World) (turn : Nat) : Task α × World :=
  match t.program with
  | .ask (.sleep wake) _ => (t.waitUntil w.clock wake turn, w)
  | .ask (.database r) _ =>
    let t := { t with trace := t.trace.addCall (.database r), fault := w.databaseFault r }
    if r.isRead then
      (t.waitUntil w.clock (w.clock.after w.databaseDelay) turn, { w with reads := w.reads + 1 })
    else ({ t with wake := none }, w)
  | _ => ({ t with wake := none }, w)

theorem program_prepare (t : Task α) (w : World) (turn : Nat) :
    (t.prepare w turn).1.program = t.program := by
  rw [prepare]
  split
  · simp only [waitUntil]; split <;> rfl
  · split
    · simp only [waitUntil]; split <;> rfl
    · rfl
  · rfl

end Task

namespace Scheduler

def spawn (s : Scheduler α) (p : Action α) : Nat × Scheduler α :=
  let (t, world) := Task.prepare ⟨s.count, p, none, s.count, none, {}⟩ s.world s.count
  (s.count, { s with world, tasks := s.tasks ++ [t], count := s.count + 1 })

def hasEnded (s : Scheduler α) (id : Nat) : Bool := s.ended.any (·.1 == id)

def isIdle (s : Scheduler α) : Bool := s.tasks.all (·.wake.isSome)

/-- Whether a task goes before another. -/
def precedes (t u : Task α) : Bool :=
  match t.wake, u.wake with
  | none, _ => u.wake.isSome
  | some _, none => false
  | some a, some b => a < b || (a == b && t.turn < u.turn)

/-- The position of the task that goes next. -/
def pick (tasks : List (Task α)) : Nat :=
  tasks.findIdx fun t => tasks.all fun u => !precedes u t

/-- Lets a task answer its request and go on. If the task was asleep, the
clock moves on to the moment when it wakes. -/
def step (s : Scheduler α) (i : Nat) (t : Task α) : Scheduler α :=
  let world := (t.wake.map s.world.advanceTo).getD s.world
  match t.program with
  | .done a =>
    { s with world, tasks := s.tasks.eraseIdx i, ended := (t.id, ⟨some a, t.trace⟩) :: s.ended }
  | .ask e next =>
    let trace := t.trace.add e
    match world.answer t.fault e with
    | (none, world) =>
      { s with world, tasks := s.tasks.eraseIdx i, ended := (t.id, ⟨none, trace⟩) :: s.ended }
    | (some answer, world) =>
      let (t, world) := Task.prepare { t with program := next answer, trace } world s.count
      { s with world, tasks := s.tasks.set i t, count := s.count + 1 }

theorem map_eraseIdx {β : Type} (f : α → β) (l : List α) (i : Nat) :
    (l.eraseIdx i).map f = (l.map f).eraseIdx i := by
  induction l generalizing i with
  | nil => rfl
  | cons a l ih => cases i <;> simp [ih]

theorem shrinks_step (s : Scheduler α) {i : Nat} (h : i < s.tasks.length) :
    Program.Shrinks ((s.step i s.tasks[i]).tasks.map Task.program) (s.tasks.map Task.program) := by
  have erased :
      Program.Shrinks ((s.tasks.eraseIdx i).map Task.program) (s.tasks.map Task.program) := by
    rw [map_eraseIdx]
    exact Program.shrinks_eraseIdx (by simpa using h)
  simp only [step]
  split
  · exact erased
  · next e next program =>
    split
    · exact erased
    · rw [List.map_set, Task.program_prepare]
      refine Program.shrinks_set (by simpa using h) ?_
      rw [List.getElem_map, program]
      exact .intro ..

/-- Runs tasks until a condition holds, or all have ended. If all of them
wait, the one that wakes first goes next. -/
def runUntil (stop : Scheduler α → Bool) (s : Scheduler α) : Scheduler α :=
  if stop s then s
  else if h : pick s.tasks < s.tasks.length then
    (s.step (pick s.tasks) s.tasks[pick s.tasks]).runUntil stop
  else s
termination_by Program.wellFounded_shrinks.wrap (s.tasks.map Task.program)
decreasing_by exact s.shrinks_step h

def report? (s : Scheduler α) (id : Nat) : Option (Report α) :=
  (s.ended.find? (·.1 == id)).map (·.2)

/-- Waits for a task. -/
def join (s : Scheduler α) (id : Nat) : Scheduler α := s.runUntil (·.hasEnded id)

def settle (s : Scheduler α) : Scheduler α := s.runUntil isIdle

/-- Carries out an operation, while others that wait may go on. -/
def perform (s : Scheduler α) (p : Action α) : Option (Report α) × Scheduler α :=
  let (id, s) := s.spawn p
  let s := s.join id
  (s.report? id, s)

/-- Carries out several operations at once. -/
def performAll (s : Scheduler α) (ps : List (Action α)) : List (Report α) × Scheduler α :=
  let (ids, s) := ps.foldl (fun (ids, s) p => let (id, s) := s.spawn p; (ids ++ [id], s)) ([], s)
  let s := s.runUntil fun s => ids.all s.hasEnded
  (ids.filterMap s.report?, s)

end Scheduler

end Simulation

end AccountCache
