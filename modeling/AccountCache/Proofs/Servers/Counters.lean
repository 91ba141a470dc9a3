import AccountCache.Proofs.Coherence.Datum
import AccountCache.Proofs.Store.Call

namespace AccountCache

theorem isDigit_of_toDigits {n : Nat} {c : Char} (member : c ∈ Nat.toDigits 10 n) : c.isDigit = true :=
  Nat.isDigit_of_mem_toDigits (by decide) (by decide) member

theorem decimal?_toDigits (n : Nat) : decimal? (Nat.toDigits 10 n) = some n := by
  have other : ((Nat.toDigits 10 n).isEmpty || (Nat.toDigits 10 n).any fun c => !c.isDigit) = false := by
    rw [List.isEmpty_eq_false_iff.2 Nat.toDigits_ne_nil, Bool.false_or, List.any_eq_false]
    intro c member
    simp [isDigit_of_toDigits member]
  have value : Nat.ofDigitChars 10 (Nat.toDigits 10 n) 0 = n := Nat.ofDigitChars_toDigits (by decide) (by decide)
  rw [Nat.ofDigitChars_eq_foldl] at value
  rw [decimal?, other, if_neg Bool.false_ne_true]
  exact congrArg some value

theorem decimal?_eq_none {cs : List Char} (hyphen : '-' ∈ cs) : decimal? cs = none := by
  have other : cs.any (fun c => !c.isDigit) = true := List.any_eq_true.2 ⟨'-', hyphen, by decide⟩
  rw [decimal?, other, Bool.or_true, if_pos rfl]

theorem int64?_toString {n : Int} (lower : minInt64 ≤ n) (upper : n ≤ maxInt64) : int64? (toString n) = some n := by
  have within : (decide (minInt64 ≤ n) && decide (n ≤ maxInt64)) = true := by simp [lower, upper]
  cases n with
  | ofNat m =>
    have chars : (toString (Int.ofNat m)).toList = Nat.toDigits 10 m := Nat.toList_repr ..
    have value : (decimal? (Nat.toDigits 10 m)).map Int.ofNat = some (Int.ofNat m) := by
      rw [decimal?_toDigits, Option.map_some]
    rw [int64?, chars]
    split
    · next eq => exact absurd (isDigit_of_toDigits (eq ▸ List.mem_cons_self ..)) (by decide)
    · next eq => exact absurd (isDigit_of_toDigits (eq ▸ List.mem_cons_self ..)) (by decide)
    · rw [value, Option.filter_some, if_pos within]
  | negSucc m =>
    have chars : (toString (Int.negSucc m)).toList = '-' :: Nat.toDigits 10 (m + 1) := by
      show ("-" ++ Nat.repr (m + 1)).toList = _
      rw [String.toList_append, Nat.toList_repr]
      rfl
    rw [int64?, chars]
    simp only [decimal?_toDigits]
    show (some (Int.negSucc m)).filter _ = _
    rw [Option.filter_some, if_pos within]

/-- A text with a hyphen in it is no integer, unless the hyphen is the sign.
So no id, and therefore no token of a lock, is taken for a counter. -/
theorem int64?_eq_none {s : String} {first : Char} {rest : List Char} (chars : s.toList = first :: rest)
    (hyphen : '-' ∈ rest) : int64? s = none := by
  have whole : '-' ∈ first :: rest := List.mem_cons_of_mem _ hyphen
  rw [int64?, chars]
  split
  · next eq =>
    obtain ⟨_, rfl⟩ := List.cons.inj eq
    rw [decimal?_eq_none hyphen]
    rfl
  · next eq =>
    obtain ⟨_, rfl⟩ := List.cons.inj eq
    rw [decimal?_eq_none hyphen]
    rfl
  · rw [decimal?_eq_none whole]
    rfl

theorem Uuid.int64?_text (u : Uuid) : int64? u.text = none := by
  obtain ⟨tail, chars⟩ : ∃ tail, u.toChars = (hexDigits 32 u.value).take 8 ++ '-' :: tail := by
    simp only [toChars, List.append_assoc, List.cons_append]
    exact ⟨_, rfl⟩
  have digits : (hexDigits 32 u.value).take 8 ≠ [] := by
    intro none
    have count := congrArg List.length none
    rw [List.length_take, length_hexDigits] at count
    cases count
  obtain ⟨first, rest, eight⟩ := List.exists_cons_of_ne_nil digits
  rw [eight, List.cons_append] at chars
  have hyphen : '-' ∈ rest ++ '-' :: tail := List.mem_append_right rest (List.mem_cons_self ..)
  exact int64?_eq_none (String.toList_ofList.trans chars) hyphen

namespace Cache

def Request.Writes (key : String) : Request → Prop
  | set e => e.key = key
  | setMany entries => ∃ e ∈ entries, e.key = key
  | _ => False

namespace MemoryStore

/-- Whether a value is an integer as it is written, and counts as that one,
or is an id, and counts as none. -/
def IsPlain (value : Bytes) : Prop :=
  (∃ n : Int, value = .ofText (toString n) ∧ counter? value = some n) ∨
    ∃ u : Uuid, value = .ofText u.text ∧ counter? value = none

theorem counter?_ofText (s : String) : counter? (.ofText s) = int64? s := by
  have text : (Bytes.ofText s).text? = some s := dif_pos s.isValidUTF8
  rw [counter?, text, Option.bind_some]

theorem isPlain_toString {n : Int} (lower : minInt64 ≤ n) (upper : n ≤ maxInt64) : IsPlain (.ofText (toString n)) :=
  .inl ⟨n, rfl, by rw [counter?_ofText, int64?_toString lower upper]⟩

theorem isPlain_text (u : Uuid) : IsPlain (.ofText u.text) :=
  .inr ⟨u, rfl, by rw [counter?_ofText, u.int64?_text]⟩

variable {s : MemoryStore} {now : Instant} {key : String} {e : Stored}

theorem counter?_bounds {value : Bytes} {n : Int} (number : counter? value = some n) :
    minInt64 ≤ n ∧ n ≤ maxInt64 := by
  obtain ⟨text, _, reads⟩ := Option.bind_eq_some_iff.1 number
  have within := (Option.filter_eq_some_iff.1 reads).2
  simpa only [Bool.and_eq_true, decide_eq_true_eq] using within

theorem live?_of_put {at_ : String} {put : Stored} (live : (s.put at_ put).live? now key = some e) :
    (at_ = key ∧ put = e) ∨ s.live? now key = some e := by
  rw [live?_put] at live
  split at live
  · next same =>
    split at live
    · cases live
    · exact .inl ⟨same, Option.some.inj live⟩
  · exact .inr live

theorem live?_of_drop {at_ : String} (live : (s.drop at_).live? now key = some e) : s.live? now key = some e := by
  rw [live?_drop] at live
  split at live
  · cases live
  · exact live

theorem live?_of_increment {at_ : String} (live : (s.increment now at_).2.live? now key = some e) :
    IsPlain e.value ∨ s.live? now key = some e := by
  simp only [increment] at live
  split at live
  · rcases live?_of_put live with ⟨_, rfl⟩ | old
    · exact .inl (isPlain_toString (n := 1) (by decide) (by decide))
    · exact .inr (s.live?_maybeSweep.symm.trans old)
  · next before _ =>
    split at live
    · exact .inr (s.live?_maybeSweep.symm.trans live)
    · next n number =>
      split at live
      · exact .inr (s.live?_maybeSweep.symm.trans live)
      · next smaller =>
        rcases live?_of_put live with ⟨_, rfl⟩ | old
        · have bounds := counter?_bounds number
          exact .inl (isPlain_toString (by omega) (by omega))
        · exact .inr (s.live?_maybeSweep.symm.trans old)

theorem live?_of_expire {at_ : String} {ttl : Duration} (live : (s.expire now at_ ttl).2.live? now key = some e) :
    ∃ before, s.live? now key = some before ∧ before.value = e.value := by
  simp only [expire] at live
  split at live
  · exact ⟨e, live?_of_drop live, rfl⟩
  · next before there =>
    split at live
    · exact ⟨e, live?_of_drop live, rfl⟩
    · split at live
      · rcases live?_of_put live with ⟨rfl, rfl⟩ | old
        · exact ⟨before, there, rfl⟩
        · exact ⟨e, old, rfl⟩
      · exact ⟨e, live, rfl⟩

theorem live?_of_acquire {lock : Lock} (live : (s.acquire now lock).2.live? now key = some e) :
    e.value = .ofText lock.token ∨ s.live? now key = some e := by
  simp only [acquire] at live
  split at live
  · exact .inr (s.live?_maybeSweep.symm.trans live)
  · split at live
    · rcases live?_of_put live with ⟨_, rfl⟩ | old
      · exact .inl rfl
      · exact .inr (s.live?_maybeSweep.symm.trans old)
    · exact .inr (s.live?_maybeSweep.symm.trans live)

/-- What is live after a request was written by it, or is an integer or a
token, or has the value that was there. -/
theorem live?_of_serve {u : Uuid} {r : Request} (live : (s.serve now u.text r).2.live? now key = some e) :
    r.Writes key ∨ IsPlain e.value ∨ ∃ before, s.live? now key = some before ∧ before.value = e.value := by
  by_cases named : key ∈ r.keys
  · have old : s.live? now key = some e → r.Writes key ∨ IsPlain e.value ∨
        ∃ before, s.live? now key = some before ∧ before.value = e.value := fun same => .inr (.inr ⟨e, same, rfl⟩)
    cases r with
    | get at_ => exact old ((s.live?_dropExpired at_).symm.trans live)
    | set entry => exact .inl (List.mem_singleton.1 named).symm
    | setMany entries => exact .inl (List.mem_map.1 named)
    | delete keys =>
      have gone : key ∈ keys := named
      rw [serve, live?_delete, if_pos gone] at live
      cases live
    | increment at_ =>
      rcases live?_of_increment live with plain | same
      · exact .inr (.inl plain)
      · exact old same
    | expire at_ ttl => exact .inr (.inr (live?_of_expire live))
    | ttl at_ => exact old live
    | acquire cacheKey expiry tries =>
      rcases live?_of_acquire live with token | same
      · exact .inr (.inl (token ▸ isPlain_text u))
      · exact old same
    | release lock =>
      simp only [serve, release] at live
      split at live
      · exact old (live?_of_drop live)
      · exact old live
    | isHeld cacheKey => exact old ((s.live?_dropExpired _).symm.trans live)
  · exact .inr (.inr ⟨e, (live?_serve u.text named).symm.trans live, rfl⟩)

end MemoryStore

end Cache

end AccountCache
