import AccountCache.Database.Request
import AccountCache.Proofs.Interleaving.Interleaved

namespace AccountCache

open Simulation (Event)

namespace Accounts

/-- What a step of a client means for copies: it asks the database or
changes it, drops entries or makes them. No other step matters to them. -/
inductive Deed where
  | load
  | write
  | drop
  | fill (keys : List String)

/-- Whether a deed of a writer takes older copies away. -/
def Deed.Clears : Deed → Prop
  | drop | fill _ => True
  | _ => False

variable {ι : Type}

def deed? (event : Event ι) : Option (ι × Deed) :=
  match event.effect, event.answer with
  | .database r, .ok _ => some (event.client, if r.isRead then .load else .write)
  | .cache (.delete _), _ => some (event.client, .drop)
  | .cache (.set e), _ => some (event.client, .fill [e.key])
  | .cache (.setMany entries), _ => some (event.client, .fill (entries.map (·.key)))
  | _, _ => none

theorem deed?_database (i : ι) (r : Database.Request) (answer : r.Result) :
    deed? ⟨i, .database r, .ok answer⟩ = some (i, if r.isRead then .load else .write) := rfl

/-- The deeds of a trace, the latest first as in the trace. -/
def deeds (trace : List (Event ι)) : List (ι × Deed) := trace.filterMap deed?

theorem deeds_sublist (event : Event ι) (trace : List (Event ι)) :
    (deeds trace).Sublist (deeds (event :: trace)) := by
  rw [deeds, deeds, List.filterMap_cons]
  split
  · exact List.Sublist.refl _
  · exact List.sublist_cons_self ..

theorem deeds_cons {event : Event ι} {deed : ι × Deed} (does : deed? event = some deed)
    (trace : List (Event ι)) : deeds (event :: trace) = deed :: deeds trace := by
  rw [deeds, List.filterMap_cons, does]
  rfl

/-- Whether a reader cached something under a key after the writer had
dropped or refilled its keys, though it asked the database before the write
had reached it. -/
def Raced (trace : List (Event (Option ι))) (key : String) : Prop :=
  ∃ i keys deed, key ∈ keys ∧ deed.Clears ∧
    [(some i, .fill keys), (none, deed), (none, .write), (some i, .load)].Sublist (deeds trace)

theorem Raced.mono {trace trace' : List (Event (Option ι))} {key : String} (raced : Raced trace key)
    (longer : (deeds trace).Sublist (deeds trace')) : Raced trace' key := by
  obtain ⟨i, keys, deed, member, clears, order⟩ := raced
  exact ⟨i, keys, deed, member, clears, order.trans longer⟩

end Accounts

end AccountCache
