namespace AccountCache

/-- The requests that a program may make, and the type of the
answer to each. -/
structure Interface where
  Request : Type
  Answer : Request → Type

/-- Programs as trees of requests. A program is finished, or it asks its
surroundings for something and goes on with the answer. What may be asked is
an interface; what the answers are is up to whoever runs the program. -/
inductive Program (I : Interface) (α : Type) where
  | done (value : α)
  | ask (request : I.Request) (next : I.Answer request → Program I α)

namespace Program

variable {I : Interface} {α β γ : Type}

def bind (p : Program I α) (f : α → Program I β) : Program I β :=
  match p with
  | done a => f a
  | ask r next => ask r fun answer => (next answer).bind f

instance : Monad (Program I) where
  pure := done
  bind := bind

def request (r : I.Request) : Program I (I.Answer r) := ask r done

@[simp] theorem pure_eq (a : α) : (pure a : Program I α) = done a := rfl

@[simp] theorem bind_eq (p : Program I α) (f : α → Program I β) : p >>= f = p.bind f := rfl

@[simp] theorem bind_done (a : α) (f : α → Program I β) : (done a).bind f = f a := rfl

@[simp] theorem bind_ask (r : I.Request) (next : I.Answer r → Program I α) (f : α → Program I β) :
    (ask r next).bind f = ask r fun answer => (next answer).bind f := rfl

@[simp] theorem request_bind (r : I.Request) (f : I.Answer r → Program I β) :
    (request r).bind f = ask r f := rfl

theorem bind_done_right (p : Program I α) : p.bind done = p := by
  induction p with
  | done => rfl
  | ask r next ih => simp [ih]

theorem bind_assoc (p : Program I α) (f : α → Program I β) (g : β → Program I γ) :
    (p.bind f).bind g = p.bind fun a => (f a).bind g := by
  induction p with
  | done => rfl
  | ask r next ih => simp [ih]

instance : LawfulMonad (Program I) :=
  LawfulMonad.mk' _ bind_done_right (fun _ _ => rfl) bind_assoc

end Program

end AccountCache
