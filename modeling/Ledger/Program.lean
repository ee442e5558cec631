namespace Ledger

/-- A course of calls, each chosen in view of the answers to the ones before, that ends with a
result. -/
inductive Program (C : Type) (Answer : C → Type) (α : Type) where
  | done (result : α)
  | call (c : C) (next : Answer c → Program C Answer α)

namespace Program

variable {C D : Type} {Answer : C → Type} {Reply : D → Type} {α β γ : Type}

/-- Goes on with the result of a program. -/
def bind : Program C Answer α → (α → Program C Answer β) → Program C Answer β
  | done a, k => k a
  | call c next, k => call c fun answer => (next answer).bind k

/-- The program of one call. -/
def ask (c : C) : Program C Answer (Answer c) :=
  call c done

/-- Puts a program of other calls in the place of every call. -/
def expand (f : (c : C) → Program D Reply (Answer c)) :
    Program C Answer α → Program D Reply α
  | done a => done a
  | call c next => (f c).bind fun answer => (next answer).expand f

@[simp] theorem done_bind (a : α) (k : α → Program C Answer β) : (done a).bind k = k a :=
  rfl

@[simp] theorem call_bind (c : C) (next : Answer c → Program C Answer α)
    (k : α → Program C Answer β) :
    (call c next).bind k = call c fun answer => (next answer).bind k :=
  rfl

@[simp] theorem bind_done (p : Program C Answer α) : p.bind done = p := by
  induction p with
  | done a => rfl
  | call c next ih => simp [ih]

theorem bind_assoc (p : Program C Answer α) (k : α → Program C Answer β)
    (l : β → Program C Answer γ) : (p.bind k).bind l = p.bind fun a => (k a).bind l := by
  induction p with
  | done a => rfl
  | call c next ih => simp [ih]

end Program

end Ledger
