import AccountCache.Proofs.Coherence.Readers
import AccountCache.Proofs.Refreshing.Requests

namespace AccountCache

def SessionTokens.token (t : SessionTokens) : TokenType → String
  | .access => t.accessToken
  | .refresh => t.refreshToken

/-- Whether an effect leaves sessions alone, and caches nothing under a
token. Whatever is done aside does not matter to a refresh. -/
def Effect.IsAside : Effect → Prop
  | .cache (.set e) => ∀ text, e.key ≠ Key.token text
  | .cache (.delete _) => True
  | .cache r => r.IsLook
  | .database r => r.isRead = true
  | _ => True

theorem Effect.covers_isAside : Effect.Covers Effect.IsAside where
  quiet e quiet := by
    cases e with
    | cache | database => cases quiet
    | _ => trivial
  look r looks := by
    cases r with
    | set | delete => cases looks
    | _ => exact looks
  drop keys := trivial

namespace Accounts

/-- Where a refresh stands. -/
inductive Turn where
  /-- The new tokens have not reached the database. -/
  | waiting
  /-- They have, and nothing was dropped. -/
  | swapped
  /-- Older copies are dropped. -/
  | dropped
  /-- The session was read back. -/
  | informed (session : Session)

namespace Turn

/-- Whether a refresh of a session to new tokens drops what is cached
under a token. -/
def Drops (old : Session) (tokens : SessionTokens) (text : String) : Prop :=
  (∃ type, old.token type = text) ∨ ∃ type, tokens.token type = text

/-- How a refresh goes on: it swaps the tokens, drops what it knows
of, reads the session back, and caches nothing under a token but
what it read. -/
inductive Moves (old : Session) (tokens : SessionTokens) : Discipline effects Turn
  | swap : Moves old tokens waiting (.database (.updateTokens old.id tokens)) (.ok ()) swapped
  | refuse {e} : Moves old tokens waiting (.database (.updateTokens old.id tokens)) (.error e) dropped
  | drop {keys} : (∀ text, Drops old tokens text → Key.token text ∈ keys) →
    Moves old tokens swapped (.cache (.delete keys)) (.ok ()) dropped
  | read {s} : Moves old tokens dropped (.database (.findSession old.id)) (.ok (some s)) (informed s)
  | fill {s entries answer} : (∀ e ∈ entries, ∀ text, e.key = Key.token text → ∃ type, s.token type = text) →
    Moves old tokens (informed s) (.cache (.setMany entries)) answer (informed s)
  | fail {s s' r e} : r.isIncrement = false → Moves old tokens s (.cache r) (.error e) s'
  | aside {s e answer} : e.IsAside → Moves old tokens s e answer s

def IsSettled : Turn → Prop
  | waiting | swapped => False
  | dropped | informed _ => True

end Turn

open Turn (Moves)

variable {a : Accounts} {old : Session} {tokens : SessionTokens} {s : Turn} {α β : Type}

/-- What a program does aside leaves a refresh where it stands. -/
theorem conforms_aside {p : Action α} (asks : Program.AsksOnly Effect.IsAside p) :
    p.Conforms (Moves old tokens) (fun s' _ => s' = s) s :=
  asks.conforms fun _ aside _ => .aside aside

theorem conforms_lift {ends : Turn → Prop} {p : Action α}
    (first : p.Conforms (Moves old tokens) (fun s _ => ends s) s) :
    (ExceptT.lift p : Operation α).run.Conforms (Moves old tokens) (fun s _ => ends s) s :=
  first.bind fun _ _ ended => ended

/-- What goes on after a value has to be settled where the first part may
end, and so has its error. -/
theorem conforms_andThen {middle : Turn → Prop} {p : Operation α} {f : α → Operation β}
    (first : p.run.Conforms (Moves old tokens) (fun s _ => middle s) s)
    (settled : ∀ s, middle s → s.IsSettled)
    (rest : ∀ value s, middle s → (f value).run.Conforms (Moves old tokens) (fun s _ => s.IsSettled) s) :
    (p >>= f).run.Conforms (Moves old tokens) (fun s _ => s.IsSettled) s :=
  conforms_bind first (fun s value => rest value s) fun s _ => settled s

theorem conforms_cacheItems {x : Session} {items : List Cache.Item}
    (told : ∀ item ∈ items, ∃ d ∈ x.data, item.key = d.key) :
    (a.cacheItems items).Conforms (Moves old tokens) (fun s _ => s = .informed x) (.informed x) := by
  rw [cacheItems, Cache.Manager.storeMany]
  split
  · exact rfl
  · intro outcome
    refine ⟨.informed x, .fill fun e member text same => ?_, ?_⟩
    · obtain ⟨item, listed, rfl⟩ := List.mem_map.1 member
      obtain ⟨d, own, key⟩ := told item listed
      obtain rfl : d = .token text := Datum.key_injective (key.symm.trans same)
      simp only [Session.data, List.mem_cons, Datum.token.injEq, reduceCtorEq, List.not_mem_nil, or_false,
        false_or] at own
      rcases own with rfl | rfl
      · exact ⟨.access, rfl⟩
      · exact ⟨.refresh, rfl⟩
    · cases outcome with
      | ok => exact rfl
      | error e => exact conforms_aside (asks_warn Effect.covers_isAside _)

theorem conforms_cacheSession (x : Session) (role : String) :
    (a.cacheSession { x with role }).Conforms (Moves old tokens) (fun s _ => s = .informed x) (.informed x) := by
  cases encoded : Storable.encode? { x with role } with
  | none =>
    unfold cacheSession
    rw [encoded]
    exact conforms_aside (asks_warn Effect.covers_isAside _)
  | some bytes =>
    rw [cacheSession_eq a encoded]
    refine fun now => ⟨_, .aside trivial, fun later => ⟨_, .aside trivial, ?_⟩⟩
    refine conforms_cacheItems fun item member => ?_
    obtain ⟨d, own, key, _⟩ := mem_sessionItems member
    exact ⟨d, own, key⟩

theorem asks_findUser_aside (id : Uuid) : Program.AsksOnly Effect.IsAside (a.findUser id).run := by
  refine asks_findUser Effect.covers_isAside rfl fun e own text same => ?_
  cases Datum.key_injective (a := .user id) (b := .token text) (own.symm.trans same)

theorem conforms_completeSession (key : String) (x : Session) :
    (a.completeSession key (some x)).run.Conforms (Moves old tokens) (fun s _ => s.IsSettled) (.informed x) := by
  have settled : ∀ s : Turn, s = .informed x → s.IsSettled := fun s same => by rw [same]; trivial
  refine conforms_andThen (conforms_aside (asks_findUser_aside x.userId)) settled ?_
  rintro owner _ rfl
  cases owner with
  | none =>
    refine conforms_andThen (conforms_lift (conforms_aside (asks_warn Effect.covers_isAside _))) settled ?_
    exact fun _ => settled
  | some user =>
    refine conforms_andThen (conforms_lift (conforms_cacheSession x user.role)) settled ?_
    exact fun _ => settled

theorem conforms_findSession :
    (a.findSession old.id).run.Conforms (Moves old tokens) (fun s _ => s.IsSettled) .dropped := by
  have settled : ∀ s : Turn, s = .dropped → s.IsSettled := fun s same => by rw [same]; trivial
  have apart : ∀ text, Key.session old.id ≠ Key.token text := fun text same => by
    cases Datum.key_injective (a := .session old.id) (b := .token text) same
  refine conforms_andThen (conforms_aside (asks_lookup Effect.covers_isAside _)) settled ?_
  rintro found _ rfl
  cases found with
  | cached value => trivial
  | load lock =>
    refine conforms_andThen (conforms_lift ?_) (fun _ ended => ended) fun outcome s ended => ?_
    · intro answer
      rcases answer with e | _ | x
      · exact ⟨.dropped, .aside rfl, trivial⟩
      · -- The mark for a missing row goes under the session's id, which is no token's key.
        refine ⟨.dropped, .aside rfl, (conforms_aside ?_).mono fun s _ => settled s⟩
        refine asks_andThen (asks_lift (asks_fillAbsent Effect.covers_isAside fun seconds text same => ?_)) fun _ =>
          .done _
        exact apart text same
      · exact ⟨.informed x, .read, conforms_completeSession (Key.session old.id) x⟩
    · refine conforms_andThen (conforms_lift (conforms_aside (asks_releaseLoad Effect.covers_isAside lock)))
        (fun _ same => same ▸ ended) ?_
      exact fun _ _ same => same ▸ ended

/-- With the cache in use a refresh keeps to its rules, and is settled when
it is over. -/
theorem conforms_refreshSession (enabled : a.cache.policy.disabled = false) :
    (a.refreshSession old tokens).run.Conforms (Moves old tokens) (fun s _ => s.IsSettled) .waiting := by
  have covers : ∀ text, Turn.Drops old tokens text → Key.token text ∈
      sessionKeys old.id old.accessToken old.refreshToken ++
        [Key.token tokens.accessToken, Key.token tokens.refreshToken] := by
    rintro text (⟨type, rfl⟩ | ⟨type, rfl⟩) <;> cases type <;>
      simp [sessionKeys, Session.token, SessionTokens.token]
  have invalidated : (a.invalidate (sessionKeys old.id old.accessToken old.refreshToken ++
      [Key.token tokens.accessToken, Key.token tokens.refreshToken])).Conforms (Moves old tokens)
      (fun s _ => s = .dropped) .swapped := by
    rw [invalidate, Cache.Manager.delete, if_neg (by rw [enabled]; exact Bool.false_ne_true)]
    intro outcome
    cases outcome with
    | ok => exact ⟨.dropped, .drop covers, rfl⟩
    | error e => exact ⟨.dropped, .fail rfl, conforms_aside (asks_warn Effect.covers_isAside _)⟩
  intro answer
  cases answer with
  | error e => exact ⟨.dropped, .refuse, trivial⟩
  | ok =>
    refine ⟨.swapped, .swap, conforms_andThen (conforms_lift invalidated) (fun s same => ?_) fun _ s same => ?_⟩
    · rw [same]
      trivial
    · rw [same]
      exact conforms_findSession

end Accounts

end AccountCache
