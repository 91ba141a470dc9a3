import AccountCache.Program

namespace AccountCache

/-- From where a program stands, through a request and its answer, to where
it stands then. -/
abbrev Discipline (I : Interface) (σ : Type) := σ → (r : I.Request) → I.Answer r → σ → Prop

namespace Program

variable {I : Interface} {σ α β : Type} {moves : Discipline I σ}

/-- Whether a program keeps to a rule from some standing on, and ends as it
should, whatever the answers are. Between two requests all that counts is
where it stands. -/
def Conforms (moves : Discipline I σ) (ends : σ → α → Prop) : Program I α → σ → Prop
  | done a, s => ends s a
  | ask r next, s => ∀ answer, ∃ s', moves s r answer s' ∧ (next answer).Conforms moves ends s'

@[simp] theorem conforms_done {ends : σ → α → Prop} {a : α} {s : σ} :
    (done a : Program I α).Conforms moves ends s ↔ ends s a := Iff.rfl

theorem Conforms.mono {p : Program I α} {s : σ} {ends ends' : σ → α → Prop}
    (conforms : p.Conforms moves ends s) (weaker : ∀ s a, ends s a → ends' s a) :
    p.Conforms moves ends' s := by
  induction p generalizing s with
  | done a => exact weaker s a conforms
  | ask r next ih =>
    intro answer
    obtain ⟨s', move, rest⟩ := conforms answer
    exact ⟨s', move, ih answer rest⟩

theorem Conforms.bind {p : Program I α} {f : α → Program I β} {s : σ} {middle : σ → α → Prop}
    {ends : σ → β → Prop} (first : p.Conforms moves middle s)
    (rest : ∀ s a, middle s a → (f a).Conforms moves ends s) : (p.bind f).Conforms moves ends s := by
  induction p generalizing s with
  | done a => exact rest s a first
  | ask r next ih =>
    intro answer
    obtain ⟨s', move, later⟩ := first answer
    exact ⟨s', move, ih answer later⟩

end Program

end AccountCache
