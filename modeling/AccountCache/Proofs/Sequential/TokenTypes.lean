import AccountCache.Proofs.Sequential.Transparency

namespace AccountCache

open Database (Tables)
open Simulation (World Circumstances Ensures Runs)

namespace Simulation

variable {c : Circumstances} {w w' w'' : World} {α β : Type} {p : Action α}

theorem Ensures.exists_runs_and {post : α → World → Prop} (ensures : Ensures c p w post) (bounded : c.bounded) :
    ∃ value w', Runs c p w value w' ∧ post value w' := by
  obtain ⟨value, w', runs⟩ := ensures.exists_runs bounded
  exact ⟨value, w', runs, ensures.of_runs runs⟩

theorem Runs.liftThen {value : α} {f : α → Accounts.Operation β} {outcome : Except Accounts.Error β}
    (first : Runs c p w value w') (rest : Runs c (f value).run w' outcome w'') :
    Runs c (ExceptT.lift p >>= f).run w outcome w'' :=
  Runs.andThen (first.bind .done) rest

end Simulation

namespace Accounts

namespace Calm

variable {a : Accounts} {c : Circumstances} {right told : Datum → Bytes → Prop} {taken : String → Prop}
  {held : List Cache.Lock} {t : Tables} {w : World} {d : Datum}

section

variable (bounded : c.bounded)

include bounded

theorem exists_cacheSession (calm : Calm a c right held t w) {s : Session}
    (correct : ∀ bytes, Storable.encode? s = some bytes → ∀ d ∈ s.data, right d bytes) :
    ∃ w', Runs c (a.cacheSession s) w () w' ∧ Calm a c right held t w' := by
  cases encoded : Storable.encode? s with
  | none =>
    unfold Accounts.cacheSession
    rw [encoded]
    obtain ⟨_, w', runs, calm⟩ := (calm.warn "failed to encode session").exists_runs_and bounded
    exact ⟨w', runs, calm⟩
  | some bytes =>
    have usual : ∀ item ∈ sessionItems s bytes s.accessTokenExpiredAt s.refreshTokenExpiredAt,
        a.cache.seconds item ≤ 9000000000000000 := by
      intro item member
      have ended : ∀ t : Timestamp, (t.remaining t).seconds = 0 := fun t => by
        rw [Timestamp.remaining, Int.sub_self]
        rfl
      have none : item.ttlSeconds = 0 := by
        simp only [sessionItems, List.mem_cons, List.not_mem_nil, or_false] at member
        rcases member with rfl | rfl | rfl <;> exact ended _
      rw [Cache.Manager.seconds, if_pos none]
      exact (calm.modest bounded).defaultTtl
    obtain ⟨_, w', runs, calm'⟩ := (calm.cacheSession_at _ _ (fun _ => usual) (correct bytes encoded)
      fun _ _ => .inr).exists_runs_and bounded
    rw [cacheSession_eq a encoded]
    exact ⟨w', .wallClock calm.roomy _ (.wallClock calm.roomy _ runs), calm'⟩

theorem exists_completeSession (calm : Calm a c (Datum.RightWith told c.unique taken t) held t w)
    (free : ∀ lock ∈ held, ∀ id, lock.cacheKey ≠ Datum.key (.user id)) {found : Option Session}
    (mark : found = none → d.RightWith told c.unique taken t Cache.nilBytes)
    (copies : ∀ s role, found = some s → ∀ bytes, Storable.encode? { s with role : Session } = some bytes →
      ∀ d ∈ s.data, told d bytes) :
    ∃ outcome w', Runs c (a.completeSession d.key found).run w outcome w' ∧
      Calm a c (Datum.RightWith told c.unique taken t) held t w' := by
  cases found with
  | none =>
    obtain ⟨_, w', runs, calm⟩ := (calm.fillAbsent (mark rfl)).exists_runs_and bounded
    exact ⟨_, w', runs.liftThen .done, calm⟩
  | some s =>
    obtain ⟨owner, w', runs, ⟨found, rfl, _⟩ | ⟨_, _, rfl⟩, calm⟩ :=
      (calm.findsUser s.userId fun lock member => free lock member s.userId).exists_runs_and bounded
    · cases found with
      | none =>
        obtain ⟨_, w'', runs', calm⟩ := (calm.warn "session owner not found").exists_runs_and bounded
        exact ⟨_, w'', runs.andThen (runs'.liftThen .done), calm⟩
      | some user =>
        obtain ⟨w'', runs', calm⟩ := calm.exists_cacheSession (s := { s with role := user.role }) bounded
          fun bytes encoded d own => rightWith_of_mem own (copies s user.role rfl bytes encoded d own)
        exact ⟨_, w'', runs.andThen (runs'.liftThen .done), calm⟩
    · exact ⟨_, w', runs.bind .done, calm⟩

theorem exists_findSessionByToken {asked : String → TokenType → Prop} {unable : Prop}
    (calm : Calm a c (Datum.RightWith (Datum.Marked asked unable t) c.unique taken t) [] t w) (type : TokenType)
    (text : String) (known : asked text type) :
    ∃ outcome w', Runs c (a.findSessionByToken type text).run w outcome w' := by
  have null : (Storable.ofJson? .null : Option Session) = none := rfl
  have looked : Ensures c (a.lookup (Datum.token text).key : Operation (Lookup Session)).run w fun outcome w' =>
      (∃ value, outcome = .ok (.cached value) ∧ True ∧
        Calm a c (Datum.RightWith (Datum.Marked asked unable t) c.unique taken t) [] t w') ∨
      ∃ lock, outcome = .ok (.load lock) ∧ (∀ l, lock = some l → l.cacheKey = (Datum.token text).key) ∧
        Calm a c (Datum.RightWith (Datum.Marked asked unable t) c.unique taken t) (lock.toList ++ []) t w' := by
    refine @Calm.lookup a c _ [] t w (.token text) Session _ (fun _ => True) calm (fun _ => nofun)
      fun bytes marked => ?_
    rcases marked with ⟨rfl, _⟩ | ⟨s, holds, _, encoded⟩
    · exact ⟨none, trivial, rfl⟩
    · refine ⟨some s, trivial, decode_ofBytes _ null ?_ encoded⟩
      rintro _ ⟨⟩
      exact faithful_of_holds calm.keyed holds
  obtain ⟨_, w', runs, ⟨value, rfl, _⟩ | ⟨lock, rfl, own, calm⟩⟩ := looked.exists_runs_and bounded
  · exact ⟨_, w', runs.andThen .done⟩
  · have free : ∀ l ∈ lock.toList ++ [], ∀ id, l.cacheKey ≠ Datum.key (.user id) := by
      intro l member id same
      rw [List.append_nil, Option.mem_toList] at member
      exact nomatch Datum.key_injective ((own l member).symm.trans same)
    have loads : ∃ outcome w'', Runs c (do
        let found ← Operation.database (.findSessionByToken type text)
        a.completeSession (Datum.token text).key found : Operation (Option Session)).run w' outcome w'' ∧
          Calm a c (Datum.RightWith (Datum.Marked asked unable t) c.unique taken t) (lock.toList ++ []) t w'' := by
      obtain ⟨_, v, runs, ⟨found, rfl, permits⟩ | ⟨_, _, rfl⟩, calm⟩ :=
        (calm.load (r := .findSessionByToken type text) rfl).exists_runs_and bounded
      · obtain ⟨there, nowhere⟩ := holds_of_permits calm.keyed permits
        obtain ⟨outcome, v', runs', calm⟩ := calm.exists_completeSession (d := .token text) bounded free
          (fun missing => .inl ⟨rfl, .inr ⟨type, known, nowhere missing⟩⟩)
          fun s role same bytes encoded d own => marked_of_holds ((there s same).1.role role) encoded own
        exact ⟨outcome, v', runs.andThen runs', calm⟩
      · exact ⟨_, v, runs.bind .done, calm⟩
    obtain ⟨outcome, v, runs', calm⟩ := loads
    obtain ⟨_, v', runs'', _⟩ := calm.releaseLoad.exists_runs_and bounded
    exact ⟨outcome, v', runs.andThen (runs'.liftThen (runs''.liftThen .done))⟩

end

end Calm

/-- What may be found by a token agrees with what the database keeps by it
under one type, but for sessions that have the token under the other type,
and for lookups under the other type. The cache has one key for both. -/
theorem agrees_of_seeks {t : Tables} {asked : TokenType → Prop} {unable : Prop} {type : TokenType} {text : String}
    {found kept : Option Session} (keyed : t.Keyed) (able : ¬unable)
    (owned : ∀ id row, t.sessions.find? id = some row → t.users.find? row.userId ≠ none)
    (seeks : t.Seeks asked unable text found) (permits : t.Permits (.findSessionByToken type text) (.ok kept) t) :
    (found.isSome → kept.isSome ∨
      ∃ id row other, t.sessions.find? id = some row ∧ other ≠ type ∧ row.token other = text) ∧
    (kept.isSome → found.isSome ∨ ∃ other, other ≠ type ∧ asked other) := by
  obtain ⟨there, nowhere⟩ := Calm.holds_of_permits keyed permits
  cases found with
  | some s =>
    refine ⟨fun _ => ?_, fun _ => .inl rfl⟩
    obtain ⟨⟨row, role, held, same⟩, other, own⟩ := seeks
    have own : row.token other = text := by
      rw [← own, same]
      cases other <;> rfl
    by_cases proper : other = type
    · subst proper
      cases kept with
      | none => exact absurd own (nowhere rfl s.id row held)
      | some => exact .inl rfl
    · exact .inr ⟨s.id, row, other, held, proper, own⟩
  | none =>
    refine ⟨nofun, fun isKept => .inr ?_⟩
    obtain ⟨s, rfl⟩ := Option.isSome_iff_exists.1 isKept
    obtain ⟨⟨row, role, held, same⟩, own⟩ := there s rfl
    rcases seeks with unwritable | ⟨other, asks, lacks⟩ | ⟨id, row, held, orphan⟩
    · exact absurd unwritable able
    · refine ⟨other, ?_, asks⟩
      rintro rfl
      refine lacks s.id row held ?_
      rw [← own, same]
      cases other <;> rfl
    · exact absurd orphan (owned id row held)

variable {a : Accounts} {c : Circumstances} {log : List Step} {w : World}

/-- As long as no read fails, each session that the database keeps has an
owner, and those that were put could be written, a lookup finds a session
where the database keeps one by this type of token. It may find one too many
only by a token that is some session's under the other type, and none only
by a token that was asked for under the other type before. -/
theorem found_as_kept_by_type (reach : Reach a c log w) (unbounded : ¬c.bounded)
    (answered : ∀ r : Database.Request, r.isRead = true → ¬c.fails r) (written : ¬Unwritten log)
    (owned : ∀ id row, w.tables.sessions.find? id = some row → w.tables.users.find? row.userId ≠ none)
    (type : TokenType) (text : String) :
    (∀ outcome w', Runs c (a.findSessionByToken type text).run w outcome w' →
      w'.tables = w.tables ∧ ∃ found, outcome = .ok found ∧
      ∀ kept, w.tables.Permits (.findSessionByToken type text) (.ok kept) w.tables →
        (found.isSome → kept.isSome ∨
          ∃ id row other, w.tables.sessions.find? id = some row ∧ other ≠ type ∧ row.token other = text) ∧
        (kept.isSome → found.isSome ∨ ∃ other, other ≠ type ∧ Asked log text other)) ∧
    (a.cache.policy.Modest → w.clock.Roomy →
      ∃ outcome w', Runs c (a.findSessionByToken type text).run w outcome w') := by
  have calm : Calm a c (Datum.RightWith
      (Datum.Marked (fun text' type' => Asked log text' type' ∨ text' = text ∧ type' = type) (Unwritten log) w.tables)
      c.unique (Taken log) w.tables) [] w.tables w :=
    (reach.recorded unbounded).mono fun _ _ right => right.mono (fun _ => id) fun marked =>
      marked.mono (fun _ _ => .inl) id
  refine ⟨fun outcome w' runs => ?_, fun modest roomy => ?_⟩
  · obtain ⟨yields, after⟩ := (calm.findsSessionByToken unbounded type text (.inr ⟨rfl, rfl⟩)).of_runs runs
    refine ⟨after.tables, ?_⟩
    rcases yields with ⟨found, rfl, seeks⟩ | ⟨fails | ⟨id, fails⟩, _⟩
    · refine ⟨found, rfl, fun kept permits => ?_⟩
      obtain ⟨there, back⟩ := agrees_of_seeks calm.keyed written owned seeks permits
      refine ⟨there, fun isKept => (back isKept).imp_right ?_⟩
      rintro ⟨other, differ, asked⟩
      exact ⟨other, differ, asked.resolve_right fun now => differ now.2⟩
    · exact absurd fails (answered _ rfl)
    · exact absurd fails (answered _ rfl)
  · -- Where the clock stays far from its end a lookup ends, and what it does there it may do here.
    have near : Calm a { c with bounded := True } _ [] w.tables w :=
      { calm with modest := fun _ => modest, roomy := fun _ => roomy }
    obtain ⟨outcome, w', runs⟩ := near.exists_findSessionByToken trivial type text (.inr ⟨rfl, rfl⟩)
    exact ⟨outcome, w', runs.mono (fun bounded => absurd bounded unbounded) (fun _ => id) id⟩

set_option maxRecDepth 4000 in
/-- A session that was created and looked up by its access token is found by
that token again. -/
theorem found_as_kept_by_type_again : ∃ log w found w',
    Reach ⟨default, ⟨5, .ofSeconds 60⟩⟩ ⟨False, fun _ => False, False⟩ log w ∧ log.length = 2 ∧
    Runs ⟨False, fun _ => False, False⟩ (findSessionByToken ⟨default, ⟨5, .ofSeconds 60⟩⟩ .access "a").run w
      (.ok found) w' ∧ found.isSome := by
  let row : Session := ⟨1, .zero, "a", "r", .epoch, .epoch, "", "", .epoch, .epoch⟩
  have only : ∀ t : Tables, t.sessions = SortedMap.empty.insert 1 row → ∀ id s, t.sessions.find? id = some s →
      s = row := by
    intro t same id s found
    rw [same, SortedMap.find?_insert] at found
    split at found
    · exact (Option.some.inj found).symm
    · cases found
  obtain ⟨log, w, looked, length, kept, owner, asked, written, roomy⟩ : ∃ log w,
      Reach ⟨default, ⟨5, .ofSeconds 60⟩⟩ ⟨False, fun _ => False, False⟩ log w ∧ log.length = 2 ∧
      w.tables.sessions = SortedMap.empty.insert 1 row ∧ w.tables.users.find? row.userId ≠ none ∧
      (∀ s ∈ log, ∀ text, s.command ≠ .findSessionByToken .refresh text) ∧
      (∀ s ∈ log, s.after.sessions = SortedMap.empty.insert 1 row) ∧ w.clock.Roomy := by
    have fresh : Reach ⟨default, ⟨5, .ofSeconds 60⟩⟩ ⟨False, fun _ => False, False⟩ []
        { tables := ({} : Tables).putUser ⟨.zero, "n", "a@b", "r", "", .epoch, .epoch⟩ "h" } :=
      .fresh (Tables.keyed_empty.putUser _ _) nofun
    have created := fresh.perform (.createSession ⟨1, .zero, "a", "r", .epoch, .epoch, "", "", .epoch, .epoch⟩) trivial
      (.query False.elim (@Tables.Permits.createSession _ _
        ⟨1, .zero, "a", "r", .epoch, .epoch, "", "", .epoch, .epoch⟩ 1 rfl (by decide) (by decide)) False.elim
        (.wallClock False.elim .epoch (.wallClock False.elim .epoch (.call False.elim rfl .done))))
    have faithful : Storable.Faithful row := Session.faithful (by decide) (by decide)
    have looked := created.perform (.findSessionByToken .access "a") trivial
      ((runs_read_of_cached False.elim rfl rfl rfl faithful rfl).bind .done)
    refine ⟨_, _, looked, rfl, rfl, by decide, ?_, ?_, by decide⟩
    · exact List.forall_mem_cons.2 ⟨fun _ => nofun, List.forall_mem_singleton.2 fun _ => nofun⟩
    · exact List.forall_mem_cons.2 ⟨rfl, List.forall_mem_singleton.2 rfl⟩
  have able : ¬Unwritten log := by
    rintro ⟨s, member, id, _, held, unable⟩
    obtain rfl := only _ (written s member) id _ held
    cases unable
  obtain ⟨all, exist⟩ := found_as_kept_by_type looked not_false (fun _ _ => not_false) able
    (fun id s held => only _ kept id s held ▸ owner) .access "a"
  obtain ⟨outcome, w', runs⟩ := exist ⟨by decide, by decide, by decide⟩ roomy
  obtain ⟨_, found, rfl, agrees⟩ := all outcome w' runs
  have there : w.tables.sessions.find? 1 = some row := by rw [kept, SortedMap.find?_insert, if_pos rfl]
  obtain ⟨_, back⟩ := agrees _ (@Tables.Permits.findSessionByToken _ .access _ 1 row "" there rfl)
  refine ⟨log, w, found, w', looked, length, runs, (back rfl).resolve_right ?_⟩
  rintro ⟨other, differ, s, member, same⟩
  cases other with
  | access => exact differ rfl
  | refresh => exact asked s member "a" same

set_option maxRecDepth 4000 in
/-- An access token is taken for a refresh token, and an access token that
was taken for a refresh token is not known as an access token afterwards. -/
theorem token_types_confused :
    (∃ log w s w', Reach ⟨default, ⟨5, .ofSeconds 60⟩⟩ ⟨False, fun _ => False, False⟩ log w ∧
      w.tables.users.find? s.userId ≠ none ∧ w.tables.Lacks .refresh "a" ∧
      Runs ⟨False, fun _ => False, False⟩ (findSessionByToken ⟨default, ⟨5, .ofSeconds 60⟩⟩ .refresh "a").run w
        (.ok (some s)) w') ∧
    ∃ log w row w', Reach ⟨default, ⟨5, .ofSeconds 60⟩⟩ ⟨False, fun _ => False, False⟩ log w ∧
      w.tables.sessions.find? row.id = some row ∧ row.accessToken = "a" ∧ w.tables.users.find? row.userId ≠ none ∧
      Runs ⟨False, fun _ => False, False⟩ (findSessionByToken ⟨default, ⟨5, .ofSeconds 60⟩⟩ .access "a").run w
        (.ok none) w' := by
  have lacks : ∀ t : Tables, t.sessions = (SortedMap.empty.insert 1
      ⟨1, .zero, "a", "r", .epoch, .epoch, "", "", .epoch, .epoch⟩) → t.Lacks .refresh "a" := by
    intro t same id row found
    rw [same, SortedMap.find?_insert] at found
    split at found
    · obtain rfl := Option.some.inj found
      decide
    · cases found
  refine ⟨?_, ?_⟩
  · have fresh : Reach ⟨default, ⟨5, .ofSeconds 60⟩⟩ ⟨False, fun _ => False, False⟩ []
        { tables := ({} : Tables).putUser ⟨.zero, "n", "a@b", "r", "", .epoch, .epoch⟩ "h" } :=
      .fresh (Tables.keyed_empty.putUser _ _) nofun
    have created := fresh.perform (.createSession ⟨1, .zero, "a", "r", .epoch, .epoch, "", "", .epoch, .epoch⟩) trivial
      (.query False.elim (@Tables.Permits.createSession _ _
        ⟨1, .zero, "a", "r", .epoch, .epoch, "", "", .epoch, .epoch⟩ 1 rfl (by decide) (by decide)) False.elim
        (.wallClock False.elim .epoch (.wallClock False.elim .epoch (.call False.elim rfl .done))))
    exact ⟨_, _, ⟨1, .zero, "a", "r", .epoch, .epoch, "", "", .epoch, .epoch⟩, _, created, by decide, lacks _ rfl,
      runs_read_of_cached False.elim rfl rfl rfl (Session.faithful (by decide) (by decide)) rfl⟩
  · have fresh : Reach ⟨default, ⟨5, .ofSeconds 60⟩⟩ ⟨False, fun _ => False, False⟩ []
        { tables := (({} : Tables).putUser ⟨.zero, "n", "a@b", "r", "", .epoch, .epoch⟩ "h").putSession
            ⟨1, .zero, "a", "r", .epoch, .epoch, "", "", .epoch, .epoch⟩ } :=
      .fresh ((Tables.keyed_empty.putUser _ _).putSession (by decide) (by decide)) nofun
    have mistaken := fresh.perform (.findSessionByToken .refresh "a") trivial
      (.call False.elim rfl (.call False.elim rfl (.load False.elim (.findNoSessionByToken (lacks _ rfl)) False.elim
        (.call False.elim rfl (.call False.elim rfl .done)))))
    exact ⟨_, _, ⟨1, .zero, "a", "r", .epoch, .epoch, "", "", .epoch, .epoch⟩, _, mistaken, rfl, rfl, by decide,
      .call False.elim rfl .done⟩

end Accounts

end AccountCache
