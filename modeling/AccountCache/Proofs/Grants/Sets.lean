import AccountCache.Proofs.ReadBack.Snapshots

namespace AccountCache

theorem SortedMap.ext_isSome {κ ν : Type} [Ord κ] [Std.TransOrd κ] [Std.LawfulEqOrd κ] {m m' : SortedMap κ ν}
    (keys : ∀ k, (m.find? k).isSome = (m'.find? k).isSome)
    (values : ∀ {k v v'}, m.find? k = some v → m'.find? k = some v' → v = v') : m = m' := by
  refine ext_find? fun k => ?_
  have both := keys k
  cases found : m.find? k with
  | none =>
    rw [found, Option.isSome_none] at both
    exact (Option.not_isSome_iff_eq_none.1 (Bool.eq_false_iff.1 both.symm)).symm
  | some v =>
    rw [found, Option.isSome_some] at both
    obtain ⟨v', found'⟩ := Option.isSome_iff_exists.1 both.symm
    rw [found', values found found']

namespace Permission

/-- Whether no role and no resource stands in a snapshot without an action.
Snapshots that are taken of grants are tight, and tight ones that answer
alike are equal. -/
structure Tight (p : Permission) : Prop where
  resources : ∀ {role resources}, p.grants.find? role = some resources →
    ∃ resource actions, resources.find? resource = some actions
  actions : ∀ {role resources resource actions}, p.grants.find? role = some resources →
    resources.find? resource = some actions → ∃ action, actions.find? action = some ()

variable {p q : Permission} {gs gs' : List Grant} {role resource : String}

theorem tight_empty : empty.Tight where
  resources := nofun
  actions := nofun

theorem Tight.add (tight : p.Tight) (g : Grant) : (p.add g).Tight where
  resources {role _} found := by
    rw [Permission.add, SortedMap.find?_insert] at found
    split at found
    · cases found
      exact ⟨g.resource, _, SortedMap.find?_insert_self ..⟩
    · exact tight.resources found
  actions {role _ resource _} found inner := by
    rw [Permission.add, SortedMap.find?_insert] at found
    split at found
    · cases found
      rw [SortedMap.find?_insert] at inner
      split at inner
      · cases inner
        exact ⟨g.action, SortedMap.find?_insert_self ..⟩
      · -- The other resources of the role are those that it had.
        rw [SortedMap.find?_getD_empty] at inner
        obtain ⟨resources, before, inner⟩ := Option.bind_eq_some_iff.1 inner
        exact tight.actions before inner
    · exact tight.actions found inner

theorem tight_ofGrants (gs : List Grant) : (ofGrants gs).Tight :=
  List.foldlRecOn gs Permission.add tight_empty fun _ tight g _ => tight.add g

theorem hasAccess_of_find? {resources : SortedMap String StringSet} {actions : StringSet} {action : String}
    (found : p.grants.find? role = some resources) (inner : resources.find? resource = some actions) :
    p.hasAccess role resource action = (actions.find? action).isSome := by
  rw [hasAccess, found, Option.bind_some, inner, Option.bind_some]

namespace Tight

theorem isSome_role (tight : p.Tight) (role : String) :
    (p.grants.find? role).isSome = true ↔ ∃ resource action, p.hasAccess role resource action = true := by
  constructor
  · intro there
    obtain ⟨resources, found⟩ := Option.isSome_iff_exists.1 there
    obtain ⟨resource, actions, inner⟩ := tight.resources found
    obtain ⟨action, member⟩ := tight.actions found inner
    exact ⟨resource, action, by rw [hasAccess_of_find? found inner, member, Option.isSome_some]⟩
  · rintro ⟨resource, action, access⟩
    cases found : p.grants.find? role with
    | none => simp [hasAccess, found] at access
    | some resources => rfl

theorem isSome_resource (tight : p.Tight) {resources : SortedMap String StringSet}
    (found : p.grants.find? role = some resources) (resource : String) :
    (resources.find? resource).isSome = true ↔ ∃ action, p.hasAccess role resource action = true := by
  constructor
  · intro there
    obtain ⟨actions, inner⟩ := Option.isSome_iff_exists.1 there
    obtain ⟨action, member⟩ := tight.actions found inner
    exact ⟨action, by rw [hasAccess_of_find? found inner, member, Option.isSome_some]⟩
  · rintro ⟨action, access⟩
    cases inner : resources.find? resource with
    | none => simp [hasAccess, found, inner] at access
    | some actions => rfl

/-- Tight snapshots that answer alike are equal. -/
theorem ext (tight : p.Tight) (tight' : q.Tight)
    (same : ∀ role resource action, p.hasAccess role resource action = q.hasAccess role resource action) : p = q := by
  have grants : p.grants = q.grants := by
    refine SortedMap.ext_isSome (fun role => ?_) fun {role resources resources'} found found' => ?_
    · rw [Bool.eq_iff_iff, tight.isSome_role, tight'.isSome_role]
      simp only [same]
    · refine SortedMap.ext_isSome (fun resource => ?_) fun {resource actions actions'} inner inner' => ?_
      · rw [Bool.eq_iff_iff, tight.isSome_resource found, tight'.isSome_resource found']
        simp only [same]
      · refine SortedMap.ext_isSome (fun action => ?_) fun _ _ => rfl
        rw [← hasAccess_of_find? found inner, ← hasAccess_of_find? found' inner', same]
  cases p
  cases q
  exact congrArg Permission.mk grants

end Tight

theorem ofGrants_eq_iff : ofGrants gs = ofGrants gs' ↔ ∀ g, g ∈ gs ↔ g ∈ gs' := by
  constructor
  · rintro same ⟨role, resource, action⟩
    rw [← hasAccess_ofGrants, same, hasAccess_ofGrants]
  · intro same
    refine (tight_ofGrants gs).ext (tight_ofGrants gs') fun role resource action => ?_
    rw [Bool.eq_iff_iff, hasAccess_ofGrants, hasAccess_ofGrants]
    exact same _

/-- Different snapshots have different texts, since each is read back
from its own. -/
theorem text_toJson_injective (same : p.toJson.text = q.toJson.text) : p = q := by
  have read : Storable.decode? (.ofText p.toJson.text) = some p := p.faithful.decode?_of_encode? rfl
  have read' : Storable.decode? (.ofText q.toJson.text) = some q := q.faithful.decode?_of_encode? rfl
  rw [same, read'] at read
  exact (Option.some.inj read).symm

/-- A snapshot of whatever grants allows exactly these, and is empty exactly
if there are none. Two snapshots are equal, and so are their texts, exactly
if the grants are the same, in whatever order they come and however often.
One more grant changes what any snapshot allows for just this role, resource
and action. -/
theorem snapshot_is_set (gs gs' : List Grant) (p : Permission) (g : Grant) :
    (∀ role resource action,
      (ofGrants gs).hasAccess role resource action = true ↔ (⟨role, resource, action⟩ : Grant) ∈ gs) ∧
    ((ofGrants gs).isEmpty = true ↔ gs = []) ∧
    (ofGrants gs = ofGrants gs' ↔ ∀ x, x ∈ gs ↔ x ∈ gs') ∧
    ((ofGrants gs).toJson.text = (ofGrants gs').toJson.text ↔ ∀ x, x ∈ gs ↔ x ∈ gs') ∧
    ∀ role resource action, (p.add g).hasAccess role resource action =
      if g = ⟨role, resource, action⟩ then true else p.hasAccess role resource action := by
  refine ⟨fun _ _ _ => hasAccess_ofGrants, isEmpty_ofGrants, ofGrants_eq_iff, ?_, fun role resource action => ?_⟩
  · rw [← ofGrants_eq_iff]
    exact ⟨text_toJson_injective, fun same => by rw [same]⟩
  · rw [Bool.eq_iff_iff, hasAccess_add]
    split
    · next same => exact ⟨fun _ => rfl, fun _ => .inl same⟩
    · next other => exact or_iff_right other

end Permission

end AccountCache
