namespace AccountCache

/-- A finite map; `entries` lists it in strictly increasing order of the
keys. Two maps with the same entries are therefore equal, and no operation
has to be proved independent of an order. -/
structure SortedMap (κ ν : Type) [Ord κ] where
  entries : List (κ × ν)
  sorted : entries.Pairwise (fun a b => compare a.1 b.1 = .lt)

namespace SortedMap

variable {κ ν μ : Type} [Ord κ]

/-- Puts a value under a key of a list in increasing order, in place of the
value there. -/
def insertInto (k : κ) (v : ν) : List (κ × ν) → List (κ × ν)
  | [] => [(k, v)]
  | e :: rest =>
    match compare k e.1 with
    | .lt => (k, v) :: e :: rest
    | .eq => (k, v) :: rest
    | .gt => e :: insertInto k v rest

/-- The value under a key of a list in increasing order. -/
def findIn (k : κ) : List (κ × ν) → Option ν
  | [] => none
  | e :: rest =>
    match compare k e.1 with
    | .lt => none
    | .eq => some e.2
    | .gt => findIn k rest

theorem mem_insertInto {k : κ} {v : ν} {a : κ × ν} {l : List (κ × ν)} (h : a ∈ insertInto k v l) :
    a = (k, v) ∨ a ∈ l := by
  induction l with
  | nil => simpa [insertInto] using h
  | cons e rest ih => grind [insertInto]

theorem findIn_eq_none_of_lt {k : κ} {l : List (κ × ν)} (h : ∀ a ∈ l, compare k a.1 = .lt) :
    findIn k l = none := by
  cases l with
  | nil => rfl
  | cons e rest => simp [findIn, h e (List.mem_cons_self ..)]

variable [Std.TransOrd κ]

theorem lt_of_gt {a b : κ} (h : compare a b = .gt) : compare b a = .lt := by
  rw [Std.OrientedOrd.eq_swap, h]; rfl

theorem lt_trans {a b c : κ} (h : compare a b = .lt) (h' : compare b c = .lt) : compare a c = .lt :=
  Std.TransCmp.lt_trans h h'

theorem sorted_insertInto (k : κ) (v : ν) {l : List (κ × ν)}
    (h : l.Pairwise (fun a b => compare a.1 b.1 = .lt)) :
    (insertInto k v l).Pairwise (fun a b => compare a.1 b.1 = .lt) := by
  induction l with
  | nil => simp [insertInto]
  | cons e rest ih =>
    obtain ⟨head, tail⟩ := List.pairwise_cons.1 h
    rw [insertInto]
    split
    · next lt =>
      refine List.pairwise_cons.2 ⟨fun a ha => ?_, h⟩
      rcases List.mem_cons.1 ha with rfl | ha
      · exact lt
      · exact lt_trans lt (head a ha)
    · next eq =>
      refine List.pairwise_cons.2 ⟨fun a ha => ?_, tail⟩
      exact Std.TransCmp.lt_of_eq_of_lt eq (head a ha)
    · next gt =>
      refine List.pairwise_cons.2 ⟨fun a ha => ?_, ih tail⟩
      rcases mem_insertInto ha with rfl | ha
      · exact lt_of_gt gt
      · exact head a ha

def empty : SortedMap κ ν := ⟨[], .nil⟩

instance : Inhabited (SortedMap κ ν) := ⟨empty⟩

instance [DecidableEq κ] [DecidableEq ν] : DecidableEq (SortedMap κ ν) := fun a b =>
  if h : a.entries = b.entries then isTrue (by cases a; cases b; simp_all)
  else isFalse (by intro e; exact h (e ▸ rfl))

def insert (m : SortedMap κ ν) (k : κ) (v : ν) : SortedMap κ ν :=
  ⟨insertInto k v m.entries, sorted_insertInto k v m.sorted⟩

def find? (m : SortedMap κ ν) (k : κ) : Option ν := findIn k m.entries

def contains (m : SortedMap κ ν) (k : κ) : Bool := (m.find? k).isSome

def filter (keep : κ → ν → Bool) (m : SortedMap κ ν) : SortedMap κ ν :=
  ⟨m.entries.filter fun e => keep e.1 e.2, m.sorted.filter _⟩

def erase (m : SortedMap κ ν) (k : κ) : SortedMap κ ν :=
  m.filter fun k' _ => compare k k' != .eq

def size (m : SortedMap κ ν) : Nat := m.entries.length

def isEmpty (m : SortedMap κ ν) : Bool := m.entries.isEmpty

def keys (m : SortedMap κ ν) : List κ := m.entries.map (·.1)

def values (m : SortedMap κ ν) : List ν := m.entries.map (·.2)

/-- The map of a list of pairs; the last of equal keys counts. -/
def ofList (l : List (κ × ν)) : SortedMap κ ν := l.foldl (fun m e => m.insert e.1 e.2) empty

theorem findIn_insertInto_self (k : κ) (v : ν) (l : List (κ × ν)) :
    findIn k (insertInto k v l) = some v := by
  induction l with
  | nil => simp [insertInto, findIn]
  | cons e rest ih =>
    rw [insertInto]
    split
    · simp [findIn]
    · simp [findIn]
    · next gt => simp [findIn, gt, ih]

theorem findIn_insertInto_ne {k k' : κ} (v : ν) (l : List (κ × ν)) (h : compare k k' ≠ .eq) :
    findIn k' (insertInto k v l) = findIn k' l := by
  have h' : compare k' k ≠ .eq := fun e => h (Std.OrientedCmp.eq_comm.1 e)
  induction l with
  | nil =>
    cases e : compare k' k with
    | eq => exact absurd e h'
    | lt => simp [insertInto, findIn, e]
    | gt => simp [insertInto, findIn, e]
  | cons e rest ih =>
    rw [insertInto]
    split
    · next lt =>
      cases c : compare k' k with
      | eq => exact absurd c h'
      | lt => simp [findIn, c, lt_trans c lt]
      | gt => rw [findIn]; simp [c]
    · next eq =>
      cases c : compare k' k with
      | eq => exact absurd c h'
      | lt => simp [findIn, c, Std.TransCmp.lt_of_lt_of_eq c eq]
      | gt =>
        have : compare k' e.1 = .gt := Std.TransCmp.gt_of_gt_of_eq c eq
        simp [findIn, c, this]
    · rw [findIn, findIn]
      split <;> simp_all

theorem find?_insert_self (m : SortedMap κ ν) (k : κ) (v : ν) : (m.insert k v).find? k = some v :=
  findIn_insertInto_self k v m.entries

theorem find?_insert_ne (m : SortedMap κ ν) {k k' : κ} (v : ν) (h : compare k k' ≠ .eq) :
    (m.insert k v).find? k' = m.find? k' :=
  findIn_insertInto_ne v m.entries h

omit [Std.TransOrd κ] in
@[simp] theorem find?_empty (k : κ) : (empty : SortedMap κ ν).find? k = none := rfl

section Lawful

variable [Std.LawfulEqOrd κ]

theorem find?_insert [DecidableEq κ] (m : SortedMap κ ν) (k k' : κ) (v : ν) :
    (m.insert k v).find? k' = if k = k' then some v else m.find? k' := by
  split
  · next same => rw [← same, find?_insert_self]
  · next differ =>
    exact find?_insert_ne m v fun eq => differ (Std.LawfulEqOrd.eq_of_compare eq)

theorem findIn_filter {keep : κ → ν → Bool} {k : κ} {l : List (κ × ν)}
    (sorted : l.Pairwise (fun a b => compare a.1 b.1 = .lt)) :
    findIn k (l.filter fun e => keep e.1 e.2) = (findIn k l).filter (keep k) := by
  induction l with
  | nil => rfl
  | cons e rest ih =>
    obtain ⟨head, tail⟩ := List.pairwise_cons.1 sorted
    have after (below : compare k e.1 ≠ .gt) :
        findIn k (rest.filter fun e => keep e.1 e.2) = none := by
      refine findIn_eq_none_of_lt fun a member => ?_
      have above := head a (List.mem_filter.1 member).1
      cases order : compare k e.1 with
      | lt => exact lt_trans order above
      | eq => rwa [Std.LawfulEqOrd.eq_of_compare order]
      | gt => exact absurd order below
    rw [List.filter_cons]
    cases order : compare k e.1 with
    | lt =>
      split
      · simp only [findIn, order, Option.filter_none]
      · simp only [findIn, order, Option.filter_none]
        exact after (by simp [order])
    | eq =>
      have same := Std.LawfulEqOrd.eq_of_compare order
      split
      · next kept => simp only [findIn, order, Option.filter_some, same ▸ kept, if_true]
      · next dropped =>
        simp only [findIn, order, Option.filter_some, same ▸ dropped]
        exact after (by simp [order])
    | gt =>
      split
      · simp only [findIn, order]
        exact ih tail
      · simp only [findIn, order]
        exact ih tail

theorem find?_filter (m : SortedMap κ ν) (keep : κ → ν → Bool) (k : κ) :
    (m.filter keep).find? k = (m.find? k).filter (keep k) :=
  findIn_filter m.sorted

theorem find?_erase [DecidableEq κ] (m : SortedMap κ ν) (k k' : κ) :
    (m.erase k).find? k' = if k = k' then none else m.find? k' := by
  rw [erase, find?_filter]
  split
  · next same =>
    rw [same]
    cases m.find? k' with
    | none => rfl
    | some v => simp [Option.filter_some]
  · next differ =>
    have order : compare k k' ≠ .eq := fun eq => differ (Std.LawfulEqOrd.eq_of_compare eq)
    cases m.find? k' with
    | none => rfl
    | some v => simp [Option.filter_some, order]

/-- An entry is in the list of a map exactly if a look-up finds it. -/
theorem mem_iff_findIn {k : κ} {v : ν} {l : List (κ × ν)}
    (sorted : l.Pairwise (fun a b => compare a.1 b.1 = .lt)) : (k, v) ∈ l ↔ findIn k l = some v := by
  induction l with
  | nil => simp [findIn]
  | cons e rest ih =>
    obtain ⟨head, tail⟩ := List.pairwise_cons.1 sorted
    have later (member : (k, v) ∈ rest) : compare k e.1 = .gt := by
      rw [Std.OrientedOrd.eq_swap, head (k, v) member]; rfl
    rw [List.mem_cons, findIn]
    cases order : compare k e.1 with
    | lt =>
      constructor
      · rintro (rfl | member)
        · simp at order
        · simp [later member] at order
      · intro found
        cases found
    | eq =>
      have same := Std.LawfulEqOrd.eq_of_compare order
      constructor
      · rintro (rfl | member)
        · rfl
        · simp [later member] at order
      · intro found
        exact Or.inl (by rw [same, ← Option.some.inj found])
    | gt =>
      constructor
      · rintro (rfl | member)
        · simp at order
        · exact (ih tail).1 member
      · intro found
        exact Or.inr ((ih tail).2 found)

theorem mem_entries_iff (m : SortedMap κ ν) {k : κ} {v : ν} :
    (k, v) ∈ m.entries ↔ m.find? k = some v :=
  mem_iff_findIn m.sorted

theorem mem_values_iff (m : SortedMap κ ν) {v : ν} : v ∈ m.values ↔ ∃ k, m.find? k = some v := by
  simp only [values, List.mem_map, ← mem_entries_iff, Prod.exists, exists_eq_right]

/-- An entry under a new key adds its value, and one under an old key
replaces the old value. -/
theorem mem_values_insert [DecidableEq κ] (m : SortedMap κ ν) (k : κ) (v : ν) {v' : ν} :
    v' ∈ (m.insert k v).values ↔ v' = v ∨ ∃ k', k ≠ k' ∧ m.find? k' = some v' := by
  rw [mem_values_iff]
  constructor
  · rintro ⟨k', found⟩
    rw [find?_insert] at found
    split at found
    · exact .inl (Option.some.inj found).symm
    · next differ => exact .inr ⟨k', differ, found⟩
  · rintro (rfl | ⟨k', differ, found⟩)
    · exact ⟨k, find?_insert_self m k v'⟩
    · exact ⟨k', by rw [find?_insert, if_neg differ, found]⟩

omit [Std.LawfulEqOrd κ] in
/-- What looks the same as the value it replaces changes nothing in the
values as they look. -/
theorem map_values_insert (m : SortedMap κ ν) {k : κ} {v v₀ : ν} (f : ν → μ)
    (found : m.find? k = some v₀) (same : f v = f v₀) :
    (m.insert k v).values.map f = m.values.map f := by
  obtain ⟨l, sorted⟩ := m
  simp only [values, insert, find?] at found ⊢
  induction l with
  | nil => cases found
  | cons e rest ih =>
    rw [findIn] at found
    rw [insertInto]
    split at found
    · cases found
    · next order =>
      obtain rfl := Option.some.inj found
      simp only [List.map_cons, same]
    · next order =>
      simp only [List.map_cons]
      rw [ih (List.pairwise_cons.1 sorted).2 found]

omit [Std.LawfulEqOrd κ] in
/-- Where neither a value nor the one it replaces passes a test, the first
that passes is as before. -/
theorem find?_values_insert (m : SortedMap κ ν) {k : κ} {v : ν} {test : ν → Bool} (new : test v = false)
    (old : ∀ v₀, m.find? k = some v₀ → test v₀ = false) :
    (m.insert k v).values.find? test = m.values.find? test := by
  obtain ⟨l, sorted⟩ := m
  simp only [values, insert, find?] at old ⊢
  induction l with
  | nil => simp [insertInto, new]
  | cons e rest ih =>
    rw [insertInto]
    cases order : compare k e.1 with
    | lt => simp only [List.map_cons, List.find?_cons, new]
    | eq =>
      have dropped := old e.2 (by simp [findIn, order])
      simp only [List.map_cons, List.find?_cons, new, dropped]
    | gt =>
      have later := ih (List.pairwise_cons.1 sorted).2 fun v₀ found => old v₀ (by simp [findIn, order, found])
      simp only [List.map_cons, List.find?_cons, later]

theorem find?_values_erase (m : SortedMap κ ν) {k : κ} {test : ν → Bool}
    (old : ∀ v₀, m.find? k = some v₀ → test v₀ = false) :
    (m.erase k).values.find? test = m.values.find? test := by
  have dropped : ∀ e ∈ m.entries, compare k e.1 = .eq → test e.2 = false := by
    intro e member order
    have found : m.find? e.1 = some e.2 := (mem_entries_iff m).1 member
    rw [← Std.LawfulEqOrd.eq_of_compare order] at found
    exact old e.2 found
  simp only [values, erase, filter]
  generalize m.entries = l at dropped
  induction l with
  | nil => rfl
  | cons e rest ih =>
    have later := ih fun e member => dropped e (List.mem_cons_of_mem _ member)
    by_cases order : compare k e.1 = .eq
    · have fails := dropped e (List.mem_cons_self ..) order
      simp only [List.filter_cons, order, List.map_cons, List.find?_cons, fails]
      exact later
    · have kept : (compare k e.1 != .eq) = true := bne_iff_ne.2 order
      simp only [List.filter_cons, kept, if_true, List.map_cons, List.find?_cons, later]

omit [Std.LawfulEqOrd κ] in
/-- Two lists in increasing order with the same members are the same list.
This is what makes maps equal that look alike. -/
theorem eq_of_mem_iff {l l' : List (κ × ν)} (sorted : l.Pairwise (fun a b => compare a.1 b.1 = .lt))
    (sorted' : l'.Pairwise (fun a b => compare a.1 b.1 = .lt)) (same : ∀ e, e ∈ l ↔ e ∈ l') :
    l = l' := by
  induction l generalizing l' with
  | nil =>
    cases l' with
    | nil => rfl
    | cons e' _ => exact absurd ((same e').2 (List.mem_cons_self ..)) (List.not_mem_nil)
  | cons e rest ih =>
    cases l' with
    | nil => exact absurd ((same e).1 (List.mem_cons_self ..)) (List.not_mem_nil)
    | cons e' rest' =>
      obtain ⟨head, tail⟩ := List.pairwise_cons.1 sorted
      obtain ⟨head', tail'⟩ := List.pairwise_cons.1 sorted'
      have irrefl (a : κ) : compare a a ≠ .lt := by simp
      have first : e = e' := by
        rcases List.mem_cons.1 ((same e).1 (List.mem_cons_self ..)) with eq | member
        · exact eq
        · rcases List.mem_cons.1 ((same e').2 (List.mem_cons_self ..)) with eq | member'
          · exact eq.symm
          · exact absurd (lt_trans (head e' member') (head' e member)) (irrefl e.1)
      subst first
      refine congrArg (e :: ·) (ih tail tail' fun a => ?_)
      constructor
      · intro member
        rcases List.mem_cons.1 ((same a).1 (List.mem_cons_of_mem _ member)) with eq | found
        · exact absurd (eq ▸ head a member) (irrefl e.1)
        · exact found
      · intro member
        rcases List.mem_cons.1 ((same a).2 (List.mem_cons_of_mem _ member)) with eq | found
        · exact absurd (eq ▸ head' a member) (irrefl e.1)
        · exact found

/-- Maps in which every look-up ends alike are equal. -/
theorem ext_find? {m m' : SortedMap κ ν} (same : ∀ k, m.find? k = m'.find? k) : m = m' := by
  have entries : m.entries = m'.entries := by
    refine eq_of_mem_iff m.sorted m'.sorted fun e => ?_
    rw [mem_entries_iff m (k := e.1), mem_entries_iff m' (k := e.1), same]
  cases m
  cases m'
  simpa using entries

end Lawful

end SortedMap

end AccountCache
