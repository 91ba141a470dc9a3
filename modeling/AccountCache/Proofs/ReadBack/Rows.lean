import AccountCache.Account.Session
import AccountCache.Account.User
import AccountCache.Cache.Item
import AccountCache.Proofs.ReadBack.JsonText
import AccountCache.Proofs.ReadBack.Rfc3339

namespace AccountCache

namespace Json

theorem filter_name_eq {members : List (String × Json)} (distinct : (members.map Prod.fst).Nodup)
    {m : String × Json} (member : m ∈ members) : (members.filter fun x => x.1 == m.1) = [m] := by
  induction members with
  | nil => cases member
  | cons first rest ih =>
    obtain ⟨new, distinct⟩ := List.nodup_cons.1 distinct
    rcases List.mem_cons.1 member with rfl | later
    · have others : (rest.filter fun x => x.1 == m.1) = [] := by
        refine List.filter_eq_nil_iff.2 fun x listed same => new ?_
        rw [← beq_iff_eq.1 same]
        exact List.mem_map_of_mem listed
      rw [List.filter_cons, if_pos (beq_self_eq_true m.1), others]
    · have differ : ¬(first.1 == m.1) = true := fun same =>
        new (beq_iff_eq.1 same ▸ List.mem_map_of_mem later)
      rw [List.filter_cons, if_neg differ, ih distinct later]

theorem field?_of_mem {members : List (String × Json)} (distinct : (members.map Prod.fst).Nodup)
    {m : String × Json} (member : m ∈ members) :
    field? (members.map fun m => (some m.1, m.2)) m.1 = some (some m.2) := by
  have only : ((members.map fun m => (some m.1, m.2)).filter fun x => x.1 == some m.1) = [(some m.1, m.2)] := by
    rw [List.filter_map]
    exact congrArg (List.map fun m => (some m.1, m.2)) (filter_name_eq distinct member)
  rw [field?, only]

/-- An object whose members have different names is read field by field. -/
theorem fields?_ofMembers {members : List (String × Json)} (distinct : (members.map Prod.fst).Nodup) :
    (ofMembers members).fields? (members.map Prod.fst) = some (members.map fun m => some m.2) := by
  have named : (members.map fun m => (some m.1, m.2)).all (fun m => m.1.isSome) = true := by
    simp only [List.all_map, List.all_eq_true]
    exact fun _ _ => rfl
  have each : ∀ part ⊆ members, (part.map Prod.fst).mapM (field? (members.map fun m => (some m.1, m.2))) =
      some (part.map fun m => some m.2) := by
    intro part within
    induction part with
    | nil => rfl
    | cons m rest ih =>
      obtain ⟨member, within⟩ := List.cons_subset.1 within
      rw [List.map_cons, List.mapM_cons, field?_of_mem distinct member, ih within]
      rfl
  rw [ofMembers, fields?, if_pos named]
  exact each members fun _ => id

theorem int?_ofInt (n : Int) : (ofInt n).int? = some n := by
  have plain : (Number.ofInt n).isPlain = true := rfl
  have proper : ¬((Number.ofInt n).negative && (Number.ofInt n).whole == 0) = true := by
    simp only [Number.ofInt, Bool.and_eq_true, decide_eq_true_eq, beq_iff_eq]
    omega
  rw [ofInt, int?, Number.int?, plain, if_neg (by simpa using proper)]
  simp only [Number.ofInt, decide_eq_true_eq, Option.some.injEq]
  omega

theorem int64?_ofInt {n : Int} (lower : minInt64 ≤ n) (upper : n ≤ maxInt64) : (ofInt n).int64? = some n := by
  rw [int64?, int?_ofInt, Option.filter_some, if_pos (by rw [decide_eq_true lower, decide_eq_true upper]; rfl)]

end Json

namespace Uuid

theorem ofHyphenated?_eq {a b c d e : List Char} (one : a.length = 8) (two : b.length = 4) (three : c.length = 4)
    (four : d.length = 4) (five : e.length = 12) :
    ofHyphenated? (a ++ '-' :: b ++ '-' :: c ++ '-' :: d ++ '-' :: e) = ofDigits? (a ++ b ++ c ++ d ++ e) := by
  obtain ⟨cs, isCs⟩ : ∃ cs, cs = a ++ '-' :: b ++ '-' :: c ++ '-' :: d ++ '-' :: e := ⟨_, rfl⟩
  have length : cs.length = 36 := by simp [isCs, one, two, three, four, five]
  have hyphens : ([8, 13, 18, 23].all fun i => cs[i]? == some '-') = true := by
    simp [isCs, List.getElem?_append, one, two, three, four]
  have digits : cs.take 8 ++ (cs.drop 9).take 4 ++ (cs.drop 14).take 4 ++ (cs.drop 19).take 4 ++ cs.drop 24 =
      a ++ b ++ c ++ d ++ e := by
    simp (disch := omega) [isCs, List.drop_append, one, two, three, four, List.drop_of_length_le]
  rw [← isCs, ofHyphenated?, hyphens, decide_eq_true length, digits]
  rfl

theorem ofText?_text (u : Uuid) : ofText? u.text = some u := by
  obtain ⟨d, isDigits⟩ : ∃ d, d = hexDigits 32 u.value := ⟨_, rfl⟩
  have length : d.length = 32 := by rw [isDigits, length_hexDigits]
  have hyphenated : ofHyphenated? u.toChars = ofDigits? d := by
    rw [toChars, ← isDigits, ofHyphenated?_eq]
    · have cut : ∀ i, (d.drop i).take 4 ++ d.drop (i + 4) = d.drop i := fun i => by
        rw [← List.drop_drop, List.take_append_drop]
      simp only [List.append_assoc, cut, List.take_append_drop]
    all_goals simp [length]
  have long : u.toChars.length = 36 := by
    simp [toChars, length_hexDigits]
  have small : u.value < Nat.pow 16 32 := Nat.lt_of_lt_of_le u.value_lt (by decide)
  have number : hexNumber? d = some u.value := isDigits ▸ hexNumber?_hexDigits small
  have same : ofNat u.value = u := ext (Nat.mod_eq_of_lt u.value_lt)
  rw [ofText?, text, String.toList_ofList, if_neg (by omega), if_pos long, hyphenated, ofDigits?, if_pos length,
    number, Option.map_some, same]
end Uuid

namespace Storable

/-- Whether a value is read back as it was written. One that cannot be
written is so without further ado. -/
def Faithful {α : Type} [Storable α] (a : α) : Prop :=
  ∀ j, toJson? a = some j → j.IsPlain ∧ ofJson? j = some a

variable {α : Type} [Storable α] {a : α} {b : Bytes}

theorem Faithful.decode?_of_encode? (faithful : Faithful a) (encoded : encode? a = some b) :
    decode? b = some a := by
  obtain ⟨j, form, rfl⟩ := Option.map_eq_some_iff.1 encoded
  obtain ⟨plain, read⟩ := faithful j form
  rw [decode?, Json.ofBytes?_text plain, Option.bind_some, read]

/-- The mark for a missing row is no row, for all that are not
read from null. -/
theorem decode?_nilBytes : (decode? Cache.nilBytes : Option α) = ofJson? .null := by
  have text : Json.ofBytes? Cache.nilBytes = some .null := Json.ofBytes?_text .null
  rw [decode?, text, Option.bind_some]

theorem Faithful.ne_nilBytes (faithful : Faithful a) (null : (ofJson? .null : Option α) = none)
    (encoded : encode? a = some b) : b ≠ Cache.nilBytes := by
  rintro rfl
  have read := faithful.decode?_of_encode? encoded
  rw [decode?_nilBytes, null] at read
  cases read

end Storable

open Storable (Faithful)

theorem String.faithful (s : String) : Faithful s := by
  rintro _ ⟨⟩
  exact ⟨.text s, rfl⟩

theorem Uuid.faithful (u : Uuid) : Faithful u := by
  rintro _ ⟨⟩
  refine ⟨.text u.text, ?_⟩
  show (some u.text).bind ofText? = some u
  rw [Option.bind_some, ofText?_text]

theorem Timestamp.faithful (t : Timestamp) : Faithful t := by
  intro j form
  have form : t.rfc3339?.map Json.ofText = some j := form
  obtain ⟨s, written, rfl⟩ := Option.map_eq_some_iff.1 form
  refine ⟨.text s, ?_⟩
  show ofRfc3339? s = some t
  exact ofRfc3339?_of_rfc3339? written

namespace Json

variable {α : Type}

@[simp] theorem required_text (s : String) : required text? (some (ofText s)) = some s := rfl

@[simp] theorem defaulting_text (default s : String) : defaulting default text? (some (ofText s)) = some s := rfl

theorem required_faithful [Storable α] {a : α} {j : Json} (faithful : Faithful a)
    (form : Storable.toJson? a = some j) : required Storable.ofJson? (some j) = some a := (faithful j form).2

end Json

theorem User.faithful (u : User) : Faithful u := by
  intro j form
  obtain ⟨created, isCreated, form⟩ := Option.bind_eq_some_iff.1 form
  obtain ⟨updated, isUpdated, form⟩ := Option.bind_eq_some_iff.1 form
  obtain ⟨members, isMembers⟩ : ∃ members : List (String × Json), members = [
    ("id", .ofText u.id.text), ("name", .ofText u.name), ("email", .ofText u.email),
    ("role", .ofText u.role), ("phone_number", .ofText u.phoneNumber),
    ("created_at", created), ("updated_at", updated)] := ⟨_, rfl⟩
  obtain rfl : Json.ofMembers members = j := isMembers ▸ Option.some.inj form
  have names : members.map Prod.fst = fieldNames := by rw [isMembers]; rfl
  have distinct : (members.map Prod.fst).Nodup := by rw [names]; decide
  have fields := Json.fields?_ofMembers distinct
  constructor
  · refine .object ?_
    have first := (u.createdAt.faithful created isCreated).1
    have last := (u.updatedAt.faithful updated isUpdated).1
    simp [isMembers, Json.IsPlain.text, first, last]
  · show User.ofJson? _ = _
    rw [names, isMembers] at fields
    rw [ofJson?, isMembers, fields]
    simp [Json.required_faithful u.id.faithful rfl, Json.required_faithful u.createdAt.faithful isCreated,
      Json.required_faithful u.updatedAt.faithful isUpdated]

theorem Session.faithful {s : Session} (lower : minInt64 ≤ s.id) (upper : s.id ≤ maxInt64) : Faithful s := by
  intro j form
  obtain ⟨access, isAccess, form⟩ := Option.bind_eq_some_iff.1 form
  obtain ⟨refresh, isRefresh, form⟩ := Option.bind_eq_some_iff.1 form
  obtain ⟨created, isCreated, form⟩ := Option.bind_eq_some_iff.1 form
  obtain ⟨updated, isUpdated, form⟩ := Option.bind_eq_some_iff.1 form
  obtain ⟨members, isMembers⟩ : ∃ members : List (String × Json), members = [
    ("id", .ofInt s.id), ("user_id", .ofText s.userId.text),
    ("access_token", .ofText s.accessToken), ("refresh_token", .ofText s.refreshToken),
    ("access_token_expired_at", access), ("refresh_token_expired_at", refresh),
    ("user_agent", .ofText s.userAgent), ("role", .ofText s.role),
    ("created_at", created), ("updated_at", updated)] := ⟨_, rfl⟩
  obtain rfl : Json.ofMembers members = j := isMembers ▸ Option.some.inj form
  have names : members.map Prod.fst = fieldNames := by rw [isMembers]; rfl
  have distinct : (members.map Prod.fst).Nodup := by rw [names]; decide
  have fields := Json.fields?_ofMembers distinct
  have id : Json.required Json.int64? (some (.ofInt s.id)) = some s.id := Json.int64?_ofInt lower upper
  constructor
  · refine .object ?_
    have plain := fun (t : Timestamp) j form => (t.faithful j form).1
    simp [isMembers, Json.IsPlain.text, Json.IsPlain.int, plain _ _ isAccess, plain _ _ isRefresh,
      plain _ _ isCreated, plain _ _ isUpdated]
  · show Session.ofJson? _ = _
    rw [names, isMembers] at fields
    have times := fun (t : Timestamp) {j} => Json.required_faithful (j := j) t.faithful
    rw [ofJson?, isMembers, fields]
    simp [id, Json.required_faithful s.userId.faithful rfl, times _ isAccess, times _ isRefresh,
      times _ isCreated, times _ isUpdated]

end AccountCache
