import AccountCache.Account.Permission
import AccountCache.Proofs.ReadBack.Rows
import Mathlib.Data.List.Induction

namespace AccountCache

namespace SortedMap

variable {κ ν : Type} [Ord κ]

theorem insertInto_last {k : κ} {v : ν} {l : List (κ × ν)} (after : ∀ e ∈ l, compare k e.1 = .gt) :
    insertInto k v l = l ++ [(k, v)] := by
  induction l with
  | nil => rfl
  | cons e rest ih =>
    have first := after e (List.mem_cons_self ..)
    have later := ih fun e member => after e (List.mem_cons_of_mem _ member)
    simp only [insertInto, first, later, List.cons_append]

variable [Std.TransOrd κ]

/-- A list in increasing order is the list of the map that it
is put into. -/
theorem entries_ofList {l : List (κ × ν)} (sorted : l.Pairwise (fun a b => compare a.1 b.1 = .lt)) :
    (ofList l).entries = l := by
  induction l using List.reverseRecOn with
  | nil => rfl
  | append_singleton rest e ih =>
    obtain ⟨front, -, before⟩ := List.pairwise_append.1 sorted
    have after : ∀ a ∈ rest, compare e.1 a.1 = .gt := by
      intro a member
      rw [Std.OrientedOrd.eq_swap, before a member e (List.mem_singleton_self e)]
      rfl
    have last : (ofList (rest ++ [e])).entries = insertInto e.1 e.2 (ofList rest).entries := by
      rw [ofList, List.foldl_append]
      rfl
    rw [last, ih front, insertInto_last after]

omit [Std.TransOrd κ] in
theorem ext_entries {m m' : SortedMap κ ν} (same : m.entries = m'.entries) : m = m' := by
  cases m
  cases m'
  simpa using same

theorem ofList_entries (m : SortedMap κ ν) : ofList m.entries = m := ext_entries (entries_ofList m.sorted)

omit [Std.TransOrd κ] in
theorem find?_getD_empty (m? : Option (SortedMap κ ν)) (k : κ) :
    (m?.getD empty).find? k = m?.bind fun m => m.find? k := by
  cases m? <;> rfl

theorem isEmpty_insert (m : SortedMap κ ν) (k : κ) (v : ν) : (m.insert k v).isEmpty = false := by
  have found := findIn_insertInto_self k v m.entries
  cases inserted : insertInto k v m.entries with
  | nil =>
    rw [inserted] at found
    cases found
  | cons e rest => simp [isEmpty, insert, inserted]

end SortedMap

namespace Permission

variable {gs : List Grant} {g : Grant} {p : Permission} {role resource action : String}

@[simp] theorem hasAccess_empty : empty.hasAccess role resource action = false := rfl

theorem hasAccess_add :
    (p.add g).hasAccess role resource action = true ↔
      g = ⟨role, resource, action⟩ ∨ p.hasAccess role resource action = true := by
  obtain ⟨role', resource', action'⟩ := g
  simp only [hasAccess, add, SortedMap.find?_insert, Grant.mk.injEq]
  by_cases sameRole : role' = role
  · by_cases sameResource : resource' = resource
    · by_cases sameAction : action' = action
      · simp [sameRole, sameResource, sameAction, SortedMap.find?_insert]
      · simp [sameRole, sameResource, sameAction, SortedMap.find?_insert, SortedMap.find?_getD_empty,
          Option.bind_assoc]
    · simp [sameRole, sameResource, SortedMap.find?_insert, SortedMap.find?_getD_empty]
  · simp [sameRole]

/-- A snapshot has exactly the grants that it was taken of, however often
and in which order they came. -/
theorem hasAccess_ofGrants :
    (ofGrants gs).hasAccess role resource action = true ↔ (⟨role, resource, action⟩ : Grant) ∈ gs := by
  induction gs using List.reverseRecOn with
  | nil => simp [ofGrants]
  | append_singleton rest g ih =>
    have last : ofGrants (rest ++ [g]) = (ofGrants rest).add g := by
      rw [ofGrants, List.foldl_append]
      rfl
    rw [last, hasAccess_add, ih, List.mem_append, List.mem_singleton, or_comm, eq_comm]

theorem isEmpty_ofGrants : (ofGrants gs).isEmpty = true ↔ gs = [] := by
  induction gs using List.reverseRecOn with
  | nil => simp [ofGrants, isEmpty, empty, SortedMap.isEmpty, SortedMap.empty]
  | append_singleton rest g ih =>
    have last : ofGrants (rest ++ [g]) = (ofGrants rest).add g := by
      rw [ofGrants, List.foldl_append]
      rfl
    simp [last, isEmpty, add, SortedMap.isEmpty_insert]

section

variable {ν : Type} (read : Json → Option ν) (write : ν → Json)

theorem mapM_member? {l : List (String × ν)} (each : ∀ e ∈ l, read (write e.2) = some e.2) :
    (l.map fun e => (some e.1, write e.2)).mapM (member? read) = some l := by
  induction l with
  | nil => rfl
  | cons e rest ih =>
    have first : member? read (some e.1, write e.2) = some e := by
      rw [member?, each e (List.mem_cons_self ..)]
      rfl
    have later := ih fun e member => each e (List.mem_cons_of_mem _ member)
    rw [List.map_cons, List.mapM_cons, first, later]
    rfl

/-- A map is read back as it was written if its values are. -/
theorem members?_ofMembers (m : SortedMap String ν) (each : ∀ e ∈ m.entries, read (write e.2) = some e.2) :
    members? read (.ofMembers (m.entries.map fun e => (e.1, write e.2))) = some m := by
  have back := mapM_member? read write each
  rw [Json.ofMembers, members?, List.map_map]
  show ((m.entries.map fun e : String × ν => (some e.1, write e.2)).mapM (member? read)).map _ = _
  rw [back, Option.map_some, SortedMap.ofList_entries]

end

theorem texts?_array (s : StringSet) : texts? (.array (s.keys.map .ofText)) = some s := by
  have texts : ∀ names : List String, (names.map Json.ofText).mapM Json.text? = some names := by
    intro names
    induction names with
    | nil => rfl
    | cons name rest ih =>
      rw [List.map_cons, List.mapM_cons, ih]
      rfl
  have pairs : s.keys.map (·, ()) = s.entries := by
    rw [SortedMap.keys, List.map_map]
    exact List.map_id _
  rw [texts?, texts, Option.map_some, pairs, SortedMap.ofList_entries]

open Storable (Faithful)

theorem faithful (p : Permission) : Faithful p := by
  rintro _ ⟨⟩
  constructor
  · refine .object fun role inRoles => ?_
    obtain ⟨⟨_, resources⟩, -, rfl⟩ := List.mem_map.1 inRoles
    refine .object fun resource inResources => ?_
    obtain ⟨⟨_, actions⟩, -, rfl⟩ := List.mem_map.1 inResources
    refine .array fun action inActions => ?_
    obtain ⟨name, -, rfl⟩ := List.mem_map.1 inActions
    exact .text name
  · have resources := fun m : SortedMap String StringSet =>
      members?_ofMembers texts? (fun s => .array (s.keys.map .ofText)) m fun e _ => texts?_array e.2
    have roles := members?_ofMembers (members? texts?)
      (fun m => .ofMembers (m.entries.map fun e => (e.1, .array (e.2.keys.map .ofText)))) p.grants
      fun e _ => resources e.2
    show (members? (members? texts?) p.toJson).map mk = some p
    rw [toJson]
    exact congrArg (Option.map mk) roles

end Permission

end AccountCache
