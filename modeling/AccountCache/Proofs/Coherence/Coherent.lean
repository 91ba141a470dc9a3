import AccountCache.Proofs.Coherence.Conduct
import AccountCache.Proofs.Coherence.Deeds
import AccountCache.Proofs.Interleaving.Backend

namespace AccountCache

open Database (Tables)
open Simulation (Event World)

namespace Simulation.World

theorem Reliable.look {w w' : World} (reliable : w.Reliable) {r : Cache.Request} (looks : r.IsLook)
    {answer : (Effect.cache r).Answer} (answers : w.Answers (.cache r) answer w') (d : Datum) :
    w'.cached? d.key = w.cached? d.key := by
  cases r with
  | get key => exact (reliable.get answers).2.2.1 d.key
  | acquire | release | isHeld =>
    refine (reliable.answers_locks answers rfl).2.1 d.key fun member => ?_
    exact d.key_ne_lock _ (List.mem_singleton.1 member)
  | _ => cases looks

end Simulation.World

namespace Accounts

variable {ι : Type}

/-- How far the writer has come: what it affected, and its deeds so far, the
latest first. There is one phase for each of its stances. -/
inductive Phase (t₀ t : Tables) : Stance → List Datum → List (Option ι × Deed) → Prop
  | pending : t = t₀ → Phase t₀ t .pending [] []
  | dirty {affected news} : Phase t₀ t (.dirty affected news) affected [(none, .write)]
  | settled {known affected passed} :
    (affected ≠ [] → ∃ deed, deed.Clears ∧ passed = [(none, deed), (none, .write)]) →
    Phase t₀ t (.reading known) affected passed

/-- Whether an answer is true, or was true when a reader got it
before the write. Answers of the second kind are what a race brings
back into the cache. -/
def Heard (t₀ t : Tables) (passed past : List (Option ι × Deed)) : Option ι → Load → Prop
  | none, l => l.TrueOf t
  | some i, l => (l.TrueOf t ∧ (some i, .load) ∈ past) ∨
      (l.TrueOf t₀ ∧ (passed ++ [(some i, Deed.load)]).Sublist past)

/-- What is true at all times of a writer, its readers and what they
share. The last field is the point: every live entry agrees with the
database, unless the write is on its way, overlooks the entry, or was
raced by a reader. -/
structure Coherent (asked : String → TokenType → Prop) (write : Write) (t₀ : Tables)
    (trace : List (Event (Option ι))) (w : World) (places : Option ι → Stance) (affected : List Datum)
    (passed : List (Option ι × Deed)) : Prop where
  reliable : w.Reliable
  phase : Phase t₀ w.tables (places none) affected passed
  changed : ∀ d, d ∈ affected ∨ write.Overlooks t₀ d ∨ d.Keeps t₀ w.tables
  readers : ∀ i, (places (some i)).IsReading
  heard : ∀ i, ∀ l ∈ (places i).known, l.Asked asked ∧ Heard t₀ w.tables passed (deeds trace) i l
  shown : ∀ d e, w.cached? d.key = some e → e.deadline.isSome ∧
    (d.Reports asked w.tables e.value ∨ write.Overlooks t₀ d ∨
      d ∈ affected ∧ ((places none).IsDirty ∨ Raced trace d.key))

variable {asked : String → TokenType → Prop} {write : Write} {t₀ : Tables} {trace : List (Event (Option ι))}
  {w w' : World} {places : Option ι → Stance} {affected : List Datum} {passed : List (Option ι × Deed)}
  {i : Option ι} {known known' : List Load}

theorem Heard.mono {t : Tables} {past past' : List (Option ι × Deed)} {l : Load}
    (heard : Heard t₀ t passed past i l) (longer : past.Sublist past') : Heard t₀ t passed past' i l := by
  cases i with
  | none => exact heard
  | some i =>
    rcases heard with ⟨holds, member⟩ | ⟨held, order⟩
    · exact .inl ⟨holds, longer.subset member⟩
    · exact .inr ⟨held, order.trans longer⟩

namespace Coherent

/-- What a client that knows an answer caches because of it. -/
theorem told (h : Coherent asked write t₀ trace w places affected passed) (at_ : places i = .reading known)
    {l : Load} (knows : l ∈ known) {d : Datum} {bytes : Bytes} (tells : l.Tells d bytes)
    {event : Event (Option ι)} {keys : List String} (fills : deed? event = some (i, .fill keys))
    (member : d.key ∈ keys) :
    d.Reports asked w.tables bytes ∨ write.Overlooks t₀ d ∨
      d ∈ affected ∧ ((places none).IsDirty ∨ Raced (event :: trace) d.key) := by
  obtain ⟨asks, heard⟩ := h.heard i l (by rwa [at_])
  cases i with
  | none => exact .inl (heard.reports asks tells)
  | some i =>
    rcases heard with ⟨holds, _⟩ | ⟨held, order⟩
    · exact .inl (holds.reports asks tells)
    · rcases h.changed d with affects | overlooks | keeps
      · refine .inr (.inr ⟨affects, ?_⟩)
        have phase := h.phase
        generalize places none = s at phase ⊢
        cases phase with
        | pending => cases affects
        | dirty => exact .inl ⟨_, _, rfl⟩
        | settled ended =>
          obtain ⟨deed, clears, rfl⟩ := ended (List.ne_nil_of_mem affects)
          refine .inr ⟨i, keys, deed, member, clears, ?_⟩
          rw [deeds_cons fills]
          exact order.cons_cons _
      · exact .inr (.inl overlooks)
      · exact .inl ((held.reports asks tells).keeps keeps)

theorem mono (h : Coherent asked write t₀ trace w places affected passed) {trace' : List (Event (Option ι))}
    (reliable : w'.Reliable) (tables : w'.tables = w.tables) (longer : (deeds trace).Sublist (deeds trace'))
    (origin : ∀ (d : Datum) e, w'.cached? d.key = some e → w.cached? d.key = some e) :
    Coherent asked write t₀ trace' w' places affected passed where
  reliable := reliable
  phase := tables ▸ h.phase
  changed := tables ▸ h.changed
  readers := h.readers
  heard i l knows := by
    obtain ⟨asks, heard⟩ := h.heard i l knows
    exact ⟨asks, tables ▸ heard.mono longer⟩
  shown d e live := by
    obtain ⟨ends, shows⟩ := h.shown d e (origin d e live)
    exact ⟨ends, tables ▸ shows.imp_right (Or.imp_right (And.imp_right (Or.imp_right fun raced =>
      raced.mono longer)))⟩

variable [DecidableEq ι] {event : Event (Option ι)}

/-- A client that has nothing to write learns from the database, or caches
what it knows. -/
theorem read (h : Coherent asked write t₀ trace w places affected passed) (at_ : places i = .reading known)
    (reliable : w'.Reliable) (tables : w'.tables = w.tables)
    (learns : ∀ l ∈ known', l ∈ known ∨
      l.Asked asked ∧ l.TrueOf w.tables ∧ (i, Deed.load) ∈ deeds (event :: trace))
    (origin : ∀ (d : Datum) e, w'.cached? d.key = some e → w.cached? d.key = some e ∨
      e.deadline.isSome ∧ ∃ keys, deed? event = some (i, .fill keys) ∧ d.key ∈ keys ∧
        ∃ l ∈ known, l.Tells d e.value) :
    Coherent asked write t₀ (event :: trace) w' (Function.update places i (.reading known')) affected passed where
  reliable := reliable
  phase := by
    have phase := h.phase
    rw [tables]
    by_cases own : i = none
    · subst own
      rw [at_] at phase
      rw [Function.update_self]
      cases phase with
      | settled ended => exact .settled ended
    · rwa [Function.update_of_ne (Ne.symm own)]
  changed := tables ▸ h.changed
  readers j := by
    by_cases own : some j = i
    · subst own
      rw [Function.update_self]
      exact ⟨known', rfl⟩
    · rw [Function.update_of_ne own]
      exact h.readers j
  heard j l knows := by
    rw [tables]
    by_cases own : j = i
    · subst own
      rw [Function.update_self] at knows
      rcases learns l knows with old | ⟨asks, holds, loads⟩
      · obtain ⟨asks, heard⟩ := h.heard j l (by rwa [at_])
        exact ⟨asks, heard.mono (deeds_sublist event trace)⟩
      · cases j with
        | none => exact ⟨asks, holds⟩
        | some j => exact ⟨asks, .inl ⟨holds, loads⟩⟩
    · rw [Function.update_of_ne own] at knows
      obtain ⟨asks, heard⟩ := h.heard j l knows
      exact ⟨asks, heard.mono (deeds_sublist event trace)⟩
  shown d e live := by
    have dirty : (places none).IsDirty → (Function.update places i (.reading known') none).IsDirty := by
      rintro ⟨news, affects, found⟩
      by_cases own : none = i
      · subst own
        rw [at_] at found
        cases found
      · rw [Function.update_of_ne own]
        exact ⟨news, affects, found⟩
    rw [tables]
    rcases origin d e live with old | ⟨ends, keys, fills, member, l, knows, tells⟩
    · obtain ⟨ends, shows⟩ := h.shown d e old
      exact ⟨ends, shows.imp_right (Or.imp_right (And.imp_right (Or.imp dirty fun raced =>
        raced.mono (deeds_sublist event trace))))⟩
    · exact ⟨ends, (h.told at_ knows tells fills member).imp_right
        (Or.imp_right (And.imp_right (Or.imp_left dirty)))⟩

theorem settle (h : Coherent asked write t₀ trace w places affected passed) (deed : Deed)
    {affects : List Datum} {news : List Load} (at_ : places none = .dirty affects news) (reliable : w'.Reliable)
    (tables : w'.tables = w.tables) (clears : deed.Clears)
    (does : deed? event = some (none, deed))
    (origin : ∀ (d : Datum) e, w'.cached? d.key = some e → (w.cached? d.key = some e ∧ d ∉ affects) ∨
      e.deadline.isSome ∧ ∃ l ∈ news, l.Tells d e.value) :
    Coherent asked write t₀ (event :: trace) w' (Function.update places none (.reading [])) affected
      [(none, deed), (none, .write)] := by
  have phase := h.phase
  have news' := h.heard none
  rw [at_] at phase news'
  cases phase with
  | dirty =>
    refine ⟨reliable, ?_, tables ▸ h.changed, fun j => ?_, fun j l knows => ?_, fun d e live => ?_⟩
    · rw [Function.update_self]
      exact .settled fun _ => ⟨deed, clears, rfl⟩
    · rw [Function.update_of_ne (by nofun)]
      exact h.readers j
    · cases j with
      | none =>
        rw [Function.update_self] at knows
        cases knows
      | some j =>
        rw [Function.update_of_ne (by nofun)] at knows
        obtain ⟨asks, heard⟩ := h.heard (some j) l knows
        refine ⟨asks, ?_⟩
        rw [tables, deeds_cons does]
        rcases heard with ⟨holds, member⟩ | ⟨held, order⟩
        · exact .inl ⟨holds, List.mem_cons_of_mem _ member⟩
        · exact .inr ⟨held, order.cons_cons _⟩
    · rw [tables]
      rcases origin d e live with ⟨old, apart⟩ | ⟨ends, l, knows, tells⟩
      · obtain ⟨ends, reports | overlooks | ⟨own, _⟩⟩ := h.shown d e old
        · exact ⟨ends, .inl reports⟩
        · exact ⟨ends, .inr (.inl overlooks)⟩
        · exact absurd own apart
      · obtain ⟨asks, holds⟩ := news' l knows
        exact ⟨ends, .inl (Load.TrueOf.reports holds asks tells)⟩

theorem wrote (h : Coherent asked write t₀ trace w places affected passed) (at_ : places none = .pending)
    (reliable : w'.Reliable) (entries : ∀ key, w'.cached? key = w.cached? key) {s : Stance}
    {affects : List Datum} {does : List (Option ι × Deed)} (phase : Phase t₀ w'.tables s affects does)
    (changed : ∀ d, d ∈ affects ∨ write.Overlooks t₀ d ∨ d.Keeps t₀ w'.tables)
    (news : ∀ l ∈ s.known, l.Asked asked ∧ l.TrueOf w'.tables) (dirty : affects ≠ [] → s.IsDirty)
    (order : ∀ i, (some i, Deed.load) ∈ deeds trace →
      (does ++ [(some i, Deed.load)]).Sublist (deeds (event :: trace))) :
    Coherent asked write t₀ (event :: trace) w' (Function.update places none s) affects does := by
  have before := h.phase
  rw [at_] at before
  cases before with
  | pending fresh =>
    refine ⟨reliable, ?_, changed, fun j => ?_, fun j l knows => ?_, fun d e live => ?_⟩
    · rwa [Function.update_self]
    · rw [Function.update_of_ne (by nofun)]
      exact h.readers j
    · cases j with
      | none =>
        rw [Function.update_self] at knows
        exact news l knows
      | some j =>
        rw [Function.update_of_ne (by nofun)] at knows
        obtain ⟨asks, ⟨holds, loads⟩ | ⟨held, loads⟩⟩ := h.heard (some j) l knows
        · exact ⟨asks, .inr ⟨fresh ▸ holds, order j loads⟩⟩
        · exact ⟨asks, .inr ⟨held, order j (List.singleton_sublist.1 loads)⟩⟩
    · rw [Function.update_self]
      obtain ⟨ends, reports | overlooks | ⟨own, _⟩⟩ := h.shown d e (entries d.key ▸ live)
      · refine ⟨ends, ?_⟩
        rcases changed d with affected | overlooks | keeps
        · exact .inr (.inr ⟨affected, .inl (dirty (List.ne_nil_of_mem affected))⟩)
        · exact .inr (.inl overlooks)
        · exact .inl (Datum.Reports.keeps (fresh ▸ reports) keeps)
      · exact ⟨ends, .inr (.inl overlooks)⟩
      · cases own

variable {a : Accounts}

theorem commit (h : Coherent asked write t₀ trace w places affected passed) (sound : t₀.Sound)
    (enabled : a.cache.policy.disabled = false) (at_ : places none = .pending)
    (reliable : w'.Reliable) (entries : ∀ key, w'.cached? key = w.cached? key) {answer : write.request.Result}
    {now : Timestamp} (served : w.tables.serve now write.request = (.ok answer, w'.tables)) :
    ∃ affected passed, Coherent asked write t₀ (⟨none, .database write.request, .ok answer⟩ :: trace) w'
      (Function.update places none (write.stance a answer)) affected passed := by
  have before := h.phase
  rw [at_] at before
  generalize fresh : w.tables = t at before served
  cases before with
  | pending same =>
    subst same
    have changed := write.keeps_of_serve sound served
    have news : ∀ l ∈ write.news answer, l.Asked asked ∧ l.TrueOf w'.tables :=
      write.trueOf_of_mem_news served
    rw [Write.stance]
    split
    · next settled =>
      have nothing : write.affected answer = [] := by
        rcases settled with off | nothing
        · rw [enabled] at off
          cases off
        · exact nothing
      rw [nothing] at changed
      refine ⟨[], [], h.wrote at_ reliable entries (.settled fun some => absurd rfl some) changed
        (fun _ => nofun) (fun some => absurd rfl some) fun i loads => ?_⟩
      exact List.singleton_sublist.2 ((deeds_sublist _ trace).subset loads)
    · refine ⟨write.affected answer, [(none, .write)], h.wrote at_ reliable entries .dirty changed news
        (fun _ => ⟨_, _, rfl⟩) fun i loads => ?_⟩
      have does : deed? ⟨(none : Option ι), .database write.request, .ok answer⟩ = some (none, .write) := by
        rw [deed?_database, write.isRead_request]
        rfl
      rw [deeds_cons does]
      exact (List.singleton_sublist.2 loads).cons_cons _

theorem refuse (h : Coherent asked write t₀ trace w places affected passed) (at_ : places none = .pending)
    (reliable : w'.Reliable) (entries : ∀ key, w'.cached? key = w.cached? key)
    (tables : w'.tables = w.tables) :
    Coherent asked write t₀ (event :: trace) w' (Function.update places none (.reading [])) [] [] := by
  have before := h.phase
  rw [at_] at before
  generalize fresh : w.tables = t at before tables
  cases before with
  | pending same =>
    subst same
    refine h.wrote at_ reliable entries (.settled fun some => absurd rfl some)
      (fun d => .inr (.inr (tables ▸ Datum.Keeps.refl t d))) (fun _ => nofun)
      (fun some => absurd rfl some) fun i loads => ?_
    exact List.singleton_sublist.2 ((deeds_sublist event trace).subset loads)

omit [DecidableEq ι] in
/-- Only the writer has anything to write. -/
theorem eq_none (h : Coherent asked write t₀ trace w places affected passed)
    (busy : ¬(places i).IsReading) : i = none := by
  cases i with
  | none => rfl
  | some j => exact absurd (h.readers j) busy

theorem load (h : Coherent asked write t₀ trace w places affected passed) (at_ : places i = .reading known)
    {r : Database.Request} {answer : r.Result} (read : r.isRead = true) (asks : Load.Asked asked ⟨r, answer⟩)
    (answers : w.Answers (.database r) (.ok answer) w') :
    Coherent asked write t₀ (⟨i, .database r, .ok answer⟩ :: trace) w'
      (Function.update places i (.reading (⟨r, answer⟩ :: known))) affected passed := by
  obtain ⟨reliable, entries, ⟨⟨_, failed⟩, _⟩ | ⟨now, served⟩⟩ := answers.of_database
  · cases failed
  · have tables : w'.tables = w.tables := by rw [← w.tables.serve_of_isRead now read, served]
    have does : deed? ⟨i, .database r, .ok answer⟩ = some (i, .load) := by
      rw [deed?_database, read]
      rfl
    refine h.read at_ (reliable h.reliable) tables (fun l knows => ?_) fun d e live =>
      .inl (entries d.key ▸ live)
    rcases List.mem_cons.1 knows with rfl | old
    · exact .inr ⟨asks, Load.trueOf_of_serve read served, deeds_cons does trace ▸ List.mem_cons_self ..⟩
    · exact .inl old

theorem miss (h : Coherent asked write t₀ trace w places affected passed) (at_ : places i = .reading known)
    {r : Database.Request} {answer : (Effect.database r).Answer} (read : r.isRead = true)
    (answers : w.Answers (.database r) answer w') :
    Coherent asked write t₀ (⟨i, .database r, answer⟩ :: trace) w'
      (Function.update places i (.reading known)) affected passed := by
  obtain ⟨reliable, entries, outcome⟩ := answers.of_database
  have tables : w'.tables = w.tables := by
    rcases outcome with ⟨_, same⟩ | ⟨now, served⟩
    · exact same
    · rw [← w.tables.serve_of_isRead now read, served]
  exact h.read at_ (reliable h.reliable) tables (fun _ => .inl) fun d e live => .inl (entries d.key ▸ live)

theorem look (h : Coherent asked write t₀ trace w places affected passed) (at_ : places i = .reading known)
    {r : Cache.Request} {answer : (Effect.cache r).Answer} (looks : r.IsLook)
    (answers : w.Answers (.cache r) answer w') :
    Coherent asked write t₀ (⟨i, .cache r, answer⟩ :: trace) w'
      (Function.update places i (.reading known)) affected passed := by
  have entries := h.reliable.look looks answers
  exact h.read at_ (h.reliable.cache answers) answers.tables_eq (fun _ => .inl) fun d e live =>
    .inl (entries d ▸ live)

theorem fill (h : Coherent asked write t₀ trace w places affected passed) (at_ : places i = .reading known)
    {x : Cache.Entry} {answer : (Effect.cache (.set x)).Answer} (positive : x.seconds ≠ 0) (told : Told known x)
    (answers : w.Answers (.cache (.set x)) answer w') :
    Coherent asked write t₀ (⟨i, .cache (.set x), answer⟩ :: trace) w'
      (Function.update places i (.reading known)) affected passed := by
  obtain ⟨reliable, _, others, written, _⟩ := h.reliable.set answers positive
  refine h.read at_ reliable answers.tables_eq (fun _ => .inl) fun d e live => ?_
  by_cases own : x.key = d.key
  · rw [← own, written] at live
    obtain rfl := Option.some.inj live
    exact .inr ⟨rfl, [x.key], rfl, List.mem_singleton.2 own.symm, told.tells own⟩
  · exact .inl (others d.key own ▸ live)

theorem fillMany (h : Coherent asked write t₀ trace w places affected passed) (at_ : places i = .reading known)
    {entries : List Cache.Entry} {answer : (Effect.cache (.setMany entries)).Answer}
    (told : ∀ x ∈ entries, Told known x) (answers : w.Answers (.cache (.setMany entries)) answer w') :
    Coherent asked write t₀ (⟨i, .cache (.setMany entries), answer⟩ :: trace) w'
      (Function.update places i (.reading known)) affected passed := by
  refine h.read at_ (h.reliable.cache answers) answers.tables_eq (fun _ => .inl) fun d e live => ?_
  rcases h.reliable.setMany answers live with ⟨old, _⟩ | ⟨x, member, own, rfl⟩
  · exact .inl old
  · exact .inr ⟨rfl, _, rfl, List.mem_map.2 ⟨x, member, own⟩, (told x member).tells own⟩

theorem drop (h : Coherent asked write t₀ trace w places affected passed) (at_ : places i = .reading known)
    {keys : List String} {answer : (Effect.cache (.delete keys)).Answer}
    (answers : w.Answers (.cache (.delete keys)) answer w') :
    Coherent asked write t₀ (⟨i, .cache (.delete keys), answer⟩ :: trace) w'
      (Function.update places i (.reading known)) affected passed := by
  refine h.read at_ (h.reliable.cache answers) answers.tables_eq (fun _ => .inl) fun d e live => ?_
  rw [h.reliable.delete answers] at live
  split at live
  · cases live
  · exact .inl live

variable {affects : List Datum} {news : List Load}

theorem clean (h : Coherent asked write t₀ trace w places affected passed)
    (at_ : places none = .dirty affects news) {keys : List String} {answer : (Effect.cache (.delete keys)).Answer}
    (covers : ∀ d ∈ affects, d.key ∈ keys) (answers : w.Answers (.cache (.delete keys)) answer w') :
    Coherent asked write t₀ (⟨none, .cache (.delete keys), answer⟩ :: trace) w'
      (Function.update places none (.reading [])) affected [(none, .drop), (none, .write)] := by
  refine h.settle .drop at_ (h.reliable.cache answers) answers.tables_eq trivial rfl fun d e live => ?_
  rw [h.reliable.delete answers] at live
  split at live
  · cases live
  · next apart => exact .inl ⟨live, fun own => apart (covers d own)⟩

theorem refresh (h : Coherent asked write t₀ trace w places affected passed)
    (at_ : places none = .dirty affects news) {entries : List Cache.Entry}
    {answer : (Effect.cache (.setMany entries)).Answer} (told : ∀ x ∈ entries, Told news x)
    (covers : ∀ d ∈ affects, ∃ x ∈ entries, x.key = d.key)
    (answers : w.Answers (.cache (.setMany entries)) answer w') :
    Coherent asked write t₀ (⟨none, .cache (.setMany entries), answer⟩ :: trace) w'
      (Function.update places none (.reading [])) affected
      [(none, .fill (entries.map (·.key))), (none, .write)] := by
  refine h.settle (.fill _) at_ (h.reliable.cache answers) answers.tables_eq trivial rfl fun d e live => ?_
  rcases h.reliable.setMany answers live with ⟨old, apart⟩ | ⟨x, member, own, rfl⟩
  · refine .inl ⟨old, fun affects => ?_⟩
    obtain ⟨x, member, own⟩ := covers d affects
    exact apart x member own
  · exact .inr ⟨rfl, (told x member).tells own⟩

/-- Whatever a client does by the rules keeps the copies coherent. The cases
are the rules of `Stance.Moves`, which say of each effect what may be cached
or dropped. -/
theorem step (h : Coherent asked write t₀ trace w places affected passed) (sound : t₀.Sound)
    (enabled : a.cache.policy.disabled = false) {e : Effect} {answer : e.Answer} {s : Stance}
    (answers : w.Answers e answer w') (move : Stance.Moves a asked write (places i) e answer s) :
    ∃ affected passed, Coherent asked write t₀ (⟨i, e, answer⟩ :: trace) w' (Function.update places i s)
      affected passed := by
  generalize at_ : places i = s₀ at move
  cases move with
  | load read asks => exact ⟨_, _, h.load at_ read asks answers⟩
  | miss read => exact ⟨_, _, h.miss at_ read answers⟩
  | look looks => exact ⟨_, _, h.look at_ looks answers⟩
  | fill _ positive told => exact ⟨_, _, h.fill at_ positive told answers⟩
  | fillMany _ told => exact ⟨_, _, h.fillMany at_ told answers⟩
  | drop => exact ⟨_, _, h.drop at_ answers⟩
  | write =>
    obtain rfl := h.eq_none (by rw [at_]; nofun)
    obtain ⟨reliable, entries, ⟨⟨_, failed⟩, _⟩ | ⟨now, served⟩⟩ := answers.of_database
    · cases failed
    · exact h.commit sound enabled at_ (reliable h.reliable) entries served
  | refuse =>
    obtain rfl := h.eq_none (by rw [at_]; nofun)
    obtain ⟨reliable, entries, outcome⟩ := answers.of_database
    have tables : w'.tables = w.tables := by
      rcases outcome with ⟨_, same⟩ | ⟨now, served⟩
      · exact same
      · exact write.eq_of_serve_error served
    exact ⟨_, _, h.refuse at_ (reliable h.reliable) entries tables⟩
  | clean covers =>
    obtain rfl := h.eq_none (by rw [at_]; nofun)
    exact ⟨_, _, h.clean at_ covers answers⟩
  | refresh _ told covers =>
    obtain rfl := h.eq_none (by rw [at_]; nofun)
    exact ⟨_, _, h.refresh at_ told covers answers⟩
  | fail plain =>
    rw [h.reliable.isIncrement_of_error answers] at plain
    cases plain
  | quiet quiet =>
    rw [← at_, Function.update_eq_self, answers.eq_of_isQuiet quiet]
    exact ⟨affected, passed, h.mono h.reliable rfl (deeds_sublist _ trace) fun _ _ => id⟩

end Coherent

end Accounts

end AccountCache
