import AccountCache.Redis.Server

namespace AccountCache

namespace Redis

variable {server : Server} {now : Instant} {key : String}

/-- Whether a command may stand in a transaction. -/
def Command.IsInner (c : Command) : Prop := c ≠ .multi ∧ c ≠ .exec

namespace Server

def lasts (now : Instant) (e : Kept) : Bool := !e.deadline.any (· ≤ now)

theorem find?_put (at_ : String) (e : Kept) :
    (server.put at_ e).find? now key = if at_ = key then (some e).filter (lasts now) else server.find? now key := by
  simp only [find?, put, SortedMap.find?_insert]
  split
  · rfl
  · rfl

theorem find?_remove (at_ : String) :
    (server.remove at_).find? now key = if at_ = key then none else server.find? now key := by
  simp only [find?, remove, SortedMap.find?_erase]
  split
  · rfl
  · rfl

/-- Whether a server takes the next command for what it is: no transaction
is open, and no reply is forced. -/
structure Idle (server : Server) : Prop where
  queue : server.queue = none
  forced : server.forced = []

theorem Idle.put (idle : server.Idle) (e : Kept) : (server.put key e).Idle := ⟨idle.queue, idle.forced⟩

theorem Idle.remove (idle : server.Idle) : (server.remove key).Idle := ⟨idle.queue, idle.forced⟩

theorem Idle.runOrForced (idle : server.Idle) (c : Command) : server.runOrForced now c = server.run now c := by
  simp only [Server.runOrForced, takeForced, idle.forced, List.find?_nil]

theorem Idle.serve (idle : server.Idle) {c : Command} (single : c ≠ .multi) :
    server.serve now c = server.run now c := by
  cases c with
  | multi => exact absurd rfl single
  | _ => simp only [Server.serve, idle.queue, idle.runOrForced]

theorem Idle.serveAll (idle : server.Idle) {c : Command} (single : c ≠ .multi) :
    server.serveAll now [c] = ([(server.run now c).1], (server.run now c).2) := by
  simp only [Server.serveAll, idle.serve single]

/-- What is queued runs when the transaction ends. -/
theorem Idle.serveAll_queue (idle : server.Idle) {cs queue : List Command} (plain : ∀ c ∈ cs, c.IsInner) :
    ({ server with queue := some queue }).serveAll now (cs ++ [Command.exec]) =
      (cs.map (fun _ => .status "QUEUED") ++ [.array (server.runAll now (queue.reverse ++ cs)).1],
        (server.runAll now (queue.reverse ++ cs)).2) := by
  obtain ⟨entries, knows, open_, forced⟩ := server
  obtain ⟨rfl, rfl⟩ : open_ = none ∧ forced = [] := ⟨idle.queue, idle.forced⟩
  induction cs generalizing queue with
  | nil => simp only [List.nil_append, List.append_nil, List.map_nil, Server.serveAll, Server.serve, takeForced,
      List.find?_nil]
  | cons c rest ih =>
    obtain ⟨⟨notMulti, notExec⟩, plain⟩ := List.forall_mem_cons.1 plain
    have queued : (⟨entries, knows, some queue, []⟩ : Server).serve now c =
        (.status "QUEUED", ⟨entries, knows, some (c :: queue), []⟩) := by
      cases c with
      | multi => exact absurd rfl notMulti
      | exec => exact absurd rfl notExec
      | _ => rfl
    have later := @ih (c :: queue) plain
    rw [List.reverse_cons, List.append_assoc, List.singleton_append] at later
    simp only [List.cons_append, Server.serveAll, queued, later, List.map_cons]

/-- A transaction runs its commands at once, and replies with
what they do. -/
theorem Idle.serveAll_transaction (idle : server.Idle) {cs : List Command} (plain : ∀ c ∈ cs, c.IsInner) :
    server.serveAll now (.multi :: cs ++ [.exec]) =
      (.status "OK" :: cs.map (fun _ => .status "QUEUED") ++ [.array (server.runAll now cs).1],
        (server.runAll now cs).2) := by
  have opened : server.serve now .multi = (.status "OK", { server with queue := some [] }) := rfl
  simp only [List.cons_append, Server.serveAll, opened, idle.serveAll_queue plain, List.reverse_nil, List.nil_append]

theorem Idle.runAll_cons (idle : server.Idle) (c : Command) (rest : List Command) :
    server.runAll now (c :: rest) = ((server.run now c).1 :: ((server.run now c).2.runAll now rest).1,
      ((server.run now c).2.runAll now rest).2) := by
  simp only [Server.runAll, idle.runOrForced]

theorem knowsRelease_run (known : server.knowsRelease = true) (c : Command) :
    (server.run now c).2.knowsRelease = true := by
  cases c with
  | del keys =>
    simp only [run]
    induction keys generalizing server with
    | nil => exact known
    | cons first rest ih =>
      have smaller : (server.remove first).knowsRelease = true := known
      exact ih smaller
  | _ =>
    simp only [run]
    repeat' split
    all_goals exact known

theorem knowsRelease_runOrForced (known : server.knowsRelease = true) (c : Command) :
    (server.runOrForced now c).2.knowsRelease = true := by
  simp only [runOrForced, takeForced]
  cases server.forced.find? (·.1 == c.name) with
  | none => exact knowsRelease_run known c
  | some reply => exact known

theorem knowsRelease_runAll (known : server.knowsRelease = true) (cs : List Command) :
    (server.runAll now cs).2.knowsRelease = true := by
  induction cs generalizing server with
  | nil => exact known
  | cons c rest ih => exact ih (knowsRelease_runOrForced known c)

theorem knowsRelease_serve (known : server.knowsRelease = true) (c : Command) :
    (server.serve now c).2.knowsRelease = true := by
  rw [serve.eq_def]
  split
  · exact known
  · simp only [takeForced]
    cases server.forced.find? (·.1 == "EXEC") with
    | none =>
      have closed : ({ server with queue := none } : Server).knowsRelease = true := known
      exact knowsRelease_runAll closed _
    | some reply => exact known
  · exact known
  · exact knowsRelease_runOrForced known _

theorem knowsRelease_serveAll (known : server.knowsRelease = true) (cs : List Command) :
    (server.serveAll now cs).2.knowsRelease = true := by
  induction cs generalizing server with
  | nil => exact known
  | cons c rest ih => exact ih (knowsRelease_serve known c)

end Server

end Redis

end AccountCache
