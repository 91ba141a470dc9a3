import AccountCache.Program

namespace AccountCache

namespace Program

variable {I : Interface} {α : Type}

/-- The program that goes on after an answer, and the one that asked. As
programs are trees, nothing goes on like that forever. -/
inductive Next : Program I α → Program I α → Prop
  | intro (r : I.Request) (next : I.Answer r → Program I α) (answer : I.Answer r) :
    Next (next answer) (ask r next)

theorem acc_next (p : Program I α) : Acc Next p := by
  induction p with
  | done a => exact ⟨_, fun _ h => nomatch h⟩
  | ask r next ih => exact ⟨_, fun _ h => by cases h; exact ih _⟩

/-- The list after one program ended or made a step, and the list before. -/
inductive Shrinks : List (Program I α) → List (Program I α) → Prop
  | drop (p : Program I α) (ps : List (Program I α)) : Shrinks ps (p :: ps)
  | step {p' p : Program I α} (ps : List (Program I α)) : Next p' p → Shrinks (p' :: ps) (p :: ps)
  | tail (p : Program I α) {qs ps : List (Program I α)} :
    Shrinks qs ps → Shrinks (p :: qs) (p :: ps)

theorem acc_cons {p : Program I α} (hp : Acc Next p)
    {ps : List (Program I α)} (hps : Acc Shrinks ps) :
    Acc Shrinks (p :: ps) := by
  induction hp generalizing ps with
  | intro p _ ihp =>
    induction hps with
    | intro ps accs ihps =>
      refine ⟨_, fun qs h => ?_⟩
      cases h with
      | drop => exact ⟨_, accs⟩
      | step _ hp => exact ihp _ hp ⟨_, accs⟩
      | tail _ h => exact ihps _ h

theorem wellFounded_shrinks : WellFounded (Shrinks (I := I) (α := α)) := by
  refine ⟨fun ps => ?_⟩
  induction ps with
  | nil => exact ⟨_, fun _ h => nomatch h⟩
  | cons p ps ih => exact acc_cons (acc_next p) ih

theorem shrinks_eraseIdx {ps : List (Program I α)} {i : Nat} (h : i < ps.length) :
    Shrinks (ps.eraseIdx i) ps := by
  induction ps generalizing i with
  | nil => exact absurd h (Nat.not_lt_zero _)
  | cons p ps ih =>
    cases i with
    | zero => exact .drop p ps
    | succ i => exact .tail p (ih (Nat.lt_of_succ_lt_succ h))

theorem shrinks_set {ps : List (Program I α)} {i : Nat} (h : i < ps.length) {p : Program I α}
    (hp : Next p ps[i]) : Shrinks (ps.set i p) ps := by
  induction ps generalizing i with
  | nil => exact absurd h (Nat.not_lt_zero _)
  | cons q ps ih =>
    cases i with
    | zero => exact .step ps hp
    | succ i => exact .tail q (ih (Nat.lt_of_succ_lt_succ h) hp)

end Program

end AccountCache
