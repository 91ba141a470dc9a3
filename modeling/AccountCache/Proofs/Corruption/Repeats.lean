import AccountCache.Proofs.Corruption.Evictions

namespace AccountCache

open Cache (MemoryStore)
open Simulation (World)

namespace Accounts

variable {a : Accounts} {w : World} {α : Type}

theorem Stock.without_without (s : Stock) (d : Datum) (rest : List Datum) :
    (s.without [d]).without rest = s.without (d :: rest) := by
  have entries : ((s.without [d]).without rest).entry = (s.without (d :: rest)).entry := by
    funext x
    by_cases member : x ∈ rest
    · simp [without, member]
    · simp [without, member]
  exact congrArg (Stock.mk s.loaded) entries

/-- How often a read fails that is repeated as long as it fails for an
entry that makes no sense, and what it ends with. Other errors end the
repetition. -/
inductive Repeated (m : Operation α) : Nat → World → Except Error α → World → Prop
  | ends {w outcome w'} : w.run? m.run = some (outcome, w') → Clear outcome → Repeated m 0 w outcome w'
  | again {w key v n outcome w'} : w.run? m.run = some (.error (.corrupt key), v) → Repeated m n v outcome w' →
    Repeated m (n + 1) w outcome w'

/-- A repeated read fails once for each of the entries that are in its
way, and then goes on as if they had not been there. The induction is on
their number. -/
theorem exists_repeated (ready : Ready a w) (free : ∀ key, w.guard? key = none) (r : Recall α) : ∃ w',
    Repeated (r.perform a) (r.spoilt w.stock).length w (r.told (w.stock.without (r.spoilt w.stock))) w' := by
  generalize bad : r.spoilt w.stock = data
  -- what is in the way afterwards is what was in the way before, less the entry that the read has failed for
  induction data generalizing w with
  | nil =>
    obtain ⟨w', ran, -⟩ := Recall.run?_eq ready free r
    cases r.outlook w.stock with
    | clear _ clear => exact ⟨w', .ends ran clear⟩
    | blocked _ first => cases bad.symm.trans first
  | cons d rest ih =>
    obtain ⟨v, ran, twin, drops⟩ := Recall.run?_eq ready free r
    cases r.outlook w.stock with
    | clear none => cases bad.symm.trans none
    | blocked _ first fails others =>
      cases bad.symm.trans first
      have dropped := drops d fails
      obtain ⟨w', repeated⟩ := ih (ready.of_akin twin.toAkin) (fun key => (twin.guards key).trans (free key))
        (dropped.spoilt.trans others)
      rw [dropped.told, Stock.without_without] at repeated
      exact ⟨w', .again (fails ▸ ran) repeated⟩

/-- A read that fails for an entry drops that entry, which is one that it
looks at and makes no sense, and no other, and leaves no lock behind.
Repeated at the same moment, it fails once for each of those that are in its
way, and yields then what it would have yielded without them. -/
theorem corrupt_entries_cost_a_read_each (ready : Ready a w) (free : ∀ key, w.guard? key = none) (r : Recall α) :
    (∀ key w', w.run? (r.perform a).run = some (.error (.corrupt key), w') →
      (∃ d ∈ r.trail w.stock, d.key = key ∧ ∃ e, w.cached? key = some e ∧ d.spoils e = true) ∧
        w'.cached? key = none ∧ (∀ other, w'.guard? other = none) ∧
        ∀ other e, other ≠ key → ¬Key.IsLock other → w.cached? other = some e → w'.cached? other = some e) ∧
    ∃ outcome w', Repeated (r.perform a) (r.spoilt w.stock).length w outcome w' ∧
      (∃ v, w.Lacks ((r.spoilt w.stock).map Datum.key) v) ∧
      ∀ v, w.Lacks ((r.spoilt w.stock).map Datum.key) v → ∃ v', v.run? (r.perform a).run = some (outcome, v') := by
  refine ⟨fun key w' failed => ?_, ?_⟩
  · obtain ⟨_, ran, twin, drops⟩ := Recall.run?_eq ready free r
    obtain ⟨fails, rfl⟩ := Prod.mk.inj (Option.some.inj (ran.symm.trans failed))
    cases r.outlook w.stock with
    | clear _ clear => exact absurd fails (clear key)
    | @blocked d rest spoilt first told _ =>
      obtain rfl : key = d.key := Error.corrupt.inj (Except.error.inj (fails.symm.trans told))
      have dropped := drops d told
      obtain ⟨e, there, nonsense⟩ := (Option.any_eq_true ..).1 spoilt
      have seen : d ∈ r.trail w.stock := (List.mem_filter.1 (first.symm ▸ List.mem_cons_self : d ∈ r.spoilt w.stock)).1
      exact ⟨⟨d, seen, rfl, e, there, nonsense⟩, dropped.gone, fun other => (twin.guards other).trans (free other),
        dropped.others⟩
  · obtain ⟨w', repeated⟩ := exists_repeated ready free r
    obtain ⟨v, _, lacks⟩ := ready.run?_invalidate (r.spoilt w.stock)
    refine ⟨_, w', repeated, ⟨v, lacks⟩, fun v lacks => ?_⟩
    have unlocked (key : String) : v.guard? key = none := (lacks.guards key).trans (free key)
    obtain ⟨v', ran, -⟩ := Recall.run?_eq (ready.of_akin lacks.toAkin) unlocked r
    exact ⟨v', lacks.stock_eq ▸ ran⟩

def holder : User := ⟨.zero, "n", "a@b", "r", "", .epoch, .epoch⟩

def emptied : MemoryStore :=
  ((MemoryStore.new .start).put (Key.email "a@b") ⟨.ofText "", none⟩).put (Key.user .zero) ⟨.ofText "", none⟩

/-- A world with that user in the database and that store in front. -/
def garbled : World where
  backend := .memory emptied none
  tables := ({} : Database.Tables).putUser holder "h"

theorem garbled_guard? (key : String) : garbled.guard? key = none := by
  have other (d : Datum) : d.key ≠ Key.lock key := fun same => d.key_not_isLock (same.symm ▸ Key.isLock_lock key)
  have user : Key.user .zero ≠ Key.lock key := other (.user .zero)
  have email : Key.email "a@b" ≠ Key.lock key := other (.email "a@b")
  show emptied.live? .start (Key.lock key) = none
  rw [emptied, MemoryStore.live?_put, if_neg user, MemoryStore.live?_put, if_neg email]
  rfl

/-- Who looks for that user by email is told of both entries, and finds
the user then. -/
theorem two_corrupt_entries_cost_two_reads : ∃ w, Repeated ((Recall.userByEmail "a@b").perform
    ⟨default, ⟨5, .ofSeconds 60⟩⟩) 2 garbled (.ok (some holder)) w := by
  have ready : Ready ⟨default, ⟨5, .ofSeconds 60⟩⟩ garbled :=
    ⟨rfl, ⟨by decide, by decide, fun _ => by decide⟩, ⟨⟨_, _, rfl⟩, fun _ => rfl⟩, by unfold Instant.Ample; decide,
      by unfold Timestamp.IsRecent; decide⟩
  have bad : (Recall.userByEmail "a@b").spoilt garbled.stock = [.email "a@b", .user .zero] := rfl
  obtain ⟨-, outcome, w, repeated, ⟨v, lacks⟩, same⟩ :=
    corrupt_entries_cost_a_read_each ready garbled_guard? (.userByEmail "a@b")
  obtain ⟨_, ran⟩ := same v lacks
  have unlocked (key : String) : v.guard? key = none := (lacks.guards key).trans (garbled_guard? key)
  obtain ⟨_, told, -⟩ := Recall.run?_eq (ready.of_akin lacks.toAkin) unlocked (.userByEmail "a@b")
  rw [lacks.stock_eq, ran] at told
  obtain rfl : outcome = _ := congrArg Prod.fst (Option.some.inj told)
  rw [bad] at repeated
  exact ⟨w, repeated⟩

end Accounts

end AccountCache
