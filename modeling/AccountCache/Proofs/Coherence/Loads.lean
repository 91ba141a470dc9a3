import AccountCache.Proofs.Coherence.Writes

namespace AccountCache

open Database (Tables)

/-- An answer of the database to a request. -/
structure Load where
  request : Database.Request
  answer : request.Result

namespace Load

/-- Whether the database would give the answer whenever it is asked. What a
true answer tells to cache is a copy. -/
def TrueOf (t : Tables) (l : Load) : Prop := ∀ now, (t.serve now l.request).1 = .ok l.answer

/-- Whether an answer is to a request for one of the given tokens,
or for none. -/
def Asked (asked : String → TokenType → Prop) (l : Load) : Prop :=
  ∀ type text, l.request = .findSessionByToken type text → asked text type

/-- Whether an answer says that bytes are a copy. -/
inductive Tells : Load → Datum → Bytes → Prop
  | user {id found bytes} : recorded? found = some bytes → Tells ⟨.findUser id, found⟩ (.user id) bytes
  | email {address} {found : Option User} {bytes} : recorded? (found.map (·.id)) = some bytes →
    Tells ⟨.findUserByEmail address, found⟩ (.email address) bytes
  | password {id found bytes} : recorded? found = some bytes →
    Tells ⟨.findPassword id, found⟩ (.password id) bytes
  | byToken {type text d bytes} {s : Session} : d ∈ s.data → s.IsCopy bytes →
    Tells ⟨.findSessionByToken type text, some s⟩ d bytes
  | noToken {type text} : Tells ⟨.findSessionByToken type text, none⟩ (.token text) Cache.nilBytes
  | byId {id d bytes} {s : Session} : d ∈ s.data → s.IsCopy bytes → Tells ⟨.findSession id, some s⟩ d bytes
  | permission {grants} :
    Tells ⟨.findGrants, grants⟩ .permission (.ofText (Permission.ofGrants grants).toJson.text)

variable {asked : String → TokenType → Prop} {t t' : Tables} {now : Timestamp} {l : Load} {d : Datum}
  {bytes : Bytes}

theorem trueOf_of_serve {r : Database.Request} {answer : r.Result} (read : r.isRead = true)
    (served : t.serve now r = (.ok answer, t')) : TrueOf t ⟨r, answer⟩ := by
  intro later
  have first := congrArg Prod.fst served
  cases r with
  | findUser | findUserByEmail | findPassword | findSessionByToken | findSession | findGrants => exact first
  | _ => cases read

theorem reports_of_isCopy {row : Session} (member : row ∈ t.sessions.values) (copy : row.IsCopy bytes)
    (own : d ∈ row.data) : d.Reports asked t bytes := by
  simp only [Session.data, List.mem_cons, List.not_mem_nil, or_false] at own
  rcases own with rfl | rfl | rfl
  · exact .inl ⟨row, member, ⟨.access, rfl⟩, copy⟩
  · exact .inl ⟨row, member, rfl, copy⟩
  · exact .inl ⟨row, member, ⟨.refresh, rfl⟩, copy⟩

theorem TrueOf.reports (holds : l.TrueOf t) (asks : l.Asked asked) (tells : l.Tells d bytes) :
    d.Reports asked t bytes := by
  cases tells with
  | user recorded | email recorded | password recorded =>
    cases holds .epoch
    exact recorded
  | permission =>
    cases holds .epoch
    rfl
  | byToken own copy =>
    obtain ⟨row, first, rfl⟩ := Option.map_eq_some_iff.1 (Except.ok.inj (holds .epoch))
    exact reports_of_isCopy (List.mem_of_find?_eq_some first) copy own
  | byId own copy =>
    obtain ⟨row, first, rfl⟩ := Option.map_eq_some_iff.1 (Except.ok.inj (holds .epoch))
    exact reports_of_isCopy ((SortedMap.mem_values_iff _).2 ⟨_, first⟩) copy own
  | @noToken type text =>
    have none := Option.map_eq_none_iff.1 (Except.ok.inj (holds .epoch))
    refine .inr ⟨⟨type, asks type text rfl, fun row member => ?_⟩, rfl⟩
    exact beq_eq_false_iff_ne.1 (Bool.eq_false_iff.2 (List.find?_eq_none.1 none row member))

end Load

/-- What the answer to a write says of the database afterwards. -/
def Accounts.Write.news : (w : Accounts.Write) → w.request.Result → List Load
  | createSession _, (row : Session) => [⟨.findSession row.id, some (Tables.found row)⟩]
  | _, _ => []

theorem Accounts.Write.trueOf_of_mem_news {asked : String → TokenType → Prop} {t t' : Tables} {now : Timestamp}
    (w : Accounts.Write) {answer : w.request.Result} (served : t.serve now w.request = (.ok answer, t')) :
    ∀ l ∈ w.news answer, l.Asked asked ∧ l.TrueOf t' := by
  cases w with
  | createSession s =>
    cases served
    intro l member
    obtain rfl := List.mem_singleton.1 member
    refine ⟨fun _ _ => nofun, fun later => ?_⟩
    simp only [Tables.serve, SortedMap.find?_insert_self, Option.map_some]
  | _ =>
    intro l member
    cases member

end AccountCache
