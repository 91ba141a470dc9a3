import AccountCache.Proofs.Refreshing.Requests

namespace AccountCache

/-- A request and the answer to it. -/
structure Exchange (I : Interface) where
  request : I.Request
  answer : I.Answer request

namespace Program

variable {I : Interface} {α β : Type} {kind : I.Request → Prop} {known : Exchange I → Prop}
  {talk : List (Exchange I)} {p q : Program I α}

/-- What a program may come to, and what is asked and heard on the way,
where the answers may be any. What is true of every course is true whichever
requests fail, whatever is cached, and whatever others do meanwhile. -/
inductive Course : Program I α → List (Exchange I) → Program I α → Prop
  | stay {p : Program I α} : Course p [] p
  | ask {r : I.Request} {next : I.Answer r → Program I α} {talk : List (Exchange I)} {q : Program I α}
      (answer : I.Answer r) : Course (next answer) talk q →
    Course (.ask r next) (⟨r, answer⟩ :: talk) q

/-- Whether a program ends as it should if it hears nothing but
what is known. -/
def Ends (known : Exchange I → Prop) (post : α → Prop) : Program I α → Prop
  | done value => post value
  | ask r next => ∀ answer, known ⟨r, answer⟩ → (next answer).Ends known post

theorem Course.snoc {r : I.Request} {next : I.Answer r → Program I α} (course : p.Course talk (.ask r next))
    (answer : I.Answer r) : p.Course (talk ++ [⟨r, answer⟩]) (next answer) := by
  generalize asks : Program.ask r next = q at course
  induction course with
  | stay =>
    subst asks
    exact .ask answer .stay
  | ask answer' _ ih => exact .ask answer' (ih asks)

theorem Course.of_ask {r : I.Request} {next : I.Answer r → Program I α} (course : (Program.ask r next).Course talk q) :
    talk = [] ∧ q = .ask r next ∨ ∃ answer rest, talk = ⟨r, answer⟩ :: rest ∧ (next answer).Course rest q := by
  cases course with
  | stay => exact .inl ⟨rfl, rfl⟩
  | ask answer rest => exact .inr ⟨answer, _, rfl, rest⟩

/-- What every move preserves of a program that keeps to a rule is true on
each of its courses. -/
theorem Course.invariant {σ : Type} {moves : Discipline I σ} {ends : σ → α → Prop} {s : σ} (course : p.Course talk q)
    (inv : List (Exchange I) → σ → Prop) (conforms : p.Conforms moves ends s) (first : inv [] s)
    (step : ∀ {talk s r answer s'}, inv talk s → moves s r answer s' → inv (talk ++ [⟨r, answer⟩]) s') :
    ∃ s, inv talk s ∧ q.Conforms moves ends s := by
  induction course generalizing inv s with
  | stay => exact ⟨s, first, conforms⟩
  | @ask r next talk q answer _ ih =>
    obtain ⟨s', move, rest⟩ := conforms answer
    exact ih (fun talk => inv (⟨r, answer⟩ :: talk)) rest (step first move) step

theorem AsksOnly.of_course (asks : p.AsksOnly kind) (course : p.Course talk q) : ∀ x ∈ talk, kind x.request := by
  induction course with
  | stay => exact fun _ => nofun
  | ask answer _ ih =>
    obtain ⟨_, own, rest⟩ := asks answer
    exact List.forall_mem_cons.2 ⟨own, ih rest⟩

namespace Ends

variable {post post' : α → Prop}

theorem mono (ends : p.Ends known post) (weaker : ∀ value, post value → post' value) : p.Ends known post' := by
  induction p with
  | done value => exact weaker value ends
  | ask r next ih => exact fun answer isKnown => ih answer (ends answer isKnown)

theorem any (p : Program I α) : p.Ends known fun _ => True := by
  induction p with
  | done value => trivial
  | ask r next ih => exact fun answer _ => ih answer

theorem bind {f : α → Program I β} {ends : β → Prop} (first : p.Ends known post)
    (rest : ∀ value, post value → (f value).Ends known ends) : (p.bind f).Ends known ends := by
  induction p with
  | done value => exact rest value first
  | ask r next ih => exact fun answer isKnown => ih answer (first answer isKnown)

theorem of_course {value : α} (ends : p.Ends known post) (course : p.Course talk (.done value))
    (heard : ∀ x ∈ talk, known x) : post value := by
  generalize ended : Program.done value = q at course
  induction course with
  | stay =>
    subst ended
    exact ends
  | ask answer _ ih =>
    obtain ⟨first, rest⟩ := List.forall_mem_cons.1 heard
    exact ih (ends answer first) rest ended

end Ends

end Program

/-- The rule by which a standing is lost when something is heard that is not
known. Clocks, chance and sleep are no reason to lose it. -/
def Hearing (known : Exchange effects → Prop) : Discipline effects Prop := fun sound e answer sound' =>
  sound' = sound ∧ e.IsQuiet ∨ sound' = (sound ∧ known ⟨e, answer⟩)

theorem Hearing.patient (known : Exchange effects → Prop) : (Hearing known).Patient :=
  fun _ _ quiet _ => .inl ⟨rfl, quiet⟩

namespace Program.Ends

variable {α : Type} {known : Exchange effects → Prop} {p : Action α} {post : α → Prop} {sound : Prop}

/-- A program ends well if it does so as long as it keeps its
standing, which is how rules for operations are turned into statements
about courses. -/
theorem of_conforms (conforms : p.Conforms (Hearing known) (fun sound value => sound → post value) sound)
    (holds : sound) : p.Ends known post := by
  induction p generalizing sound with
  | done value => exact conforms holds
  | ask e next ih =>
    intro answer isKnown
    obtain ⟨sound', ⟨rfl, _⟩ | rfl, rest⟩ := conforms answer
    · exact ih answer rest holds
    · exact ih answer rest ⟨holds, isKnown⟩

theorem conforms (ends : sound → p.Ends known post) :
    p.Conforms (Hearing known) (fun sound value => sound → post value) sound := by
  induction p generalizing sound with
  | done value => exact ends
  | ask e next ih =>
    exact fun answer => ⟨_, .inr rfl, ih answer fun ⟨holds, isKnown⟩ => ends holds answer isKnown⟩

end Program.Ends

namespace Simulation

variable {ι α : Type} [DecidableEq ι] {mayPass : World → Instant → Prop} {world w : World}
  {clients ps : ι → Action α} {trace : List (Event ι)}

def exchanges (i : ι) (trace : List (Event ι)) : List (Exchange effects) :=
  (trace.filter (·.client = i)).reverse.map fun x => ⟨x.effect, x.answer⟩

theorem exchanges_cons (i : ι) (x : Event ι) (trace : List (Event ι)) :
    exchanges i (x :: trace) =
      if x.client = i then exchanges i trace ++ [⟨x.effect, x.answer⟩] else exchanges i trace := by
  by_cases own : x.client = i
  · rw [if_pos own, exchanges, List.filter_cons_of_pos (by simpa using own), List.reverse_cons, List.map_append]
    rfl
  · rw [if_neg own, exchanges, List.filter_cons_of_neg (by simpa using own)]
    rfl

/-- Among other clients, in whatever world, a client takes one of its
courses. Who answers does not matter to it. -/
theorem Interleaved.course (run : Interleaved mayPass world clients trace w ps) (i : ι) :
    (clients i).Course (exchanges i trace) (ps i) := by
  induction run with
  | start => exact .stay
  | wait _ _ ih => exact ih
  | @step trace w ps e next answer w' j _ asks _ ih =>
    rw [exchanges_cons]
    by_cases own : j = i
    · subst own
      rw [if_pos rfl, Function.update_self]
      rw [asks] at ih
      exact ih.snoc answer
    · rw [if_neg own, Function.update_of_ne (Ne.symm own)]
      exact ih

end Simulation

end AccountCache
