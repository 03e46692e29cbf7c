/-!
# Programs

A program is a computation that acts on its surroundings through named operations only.  It is a
tree: it ends with a result or an error, or performs an operation and goes on with the answer, or
looks at what it may see and goes on.  What an operation does is said by the handler that the
program is run with, so one program can be run by different handlers, and a statement about all
programs is one by induction on the tree.

* `Program.bind` and `Program.tryCatch` make programs a monad with errors.
* `Program.run` runs a program with a handler in any monad with errors and state access.
-/

namespace ProductModel

/-- **A program** over operations `ω` with answers `ans`.  It may look at a view `ν`, keeps a state
`σ` of its own, may fail with an `ε`, and results in an `α`. -/
inductive Program (ω : Type) (ans : ω → Type) (ν σ ε : Type) (α : Type) where
  | pure (a : α)
  | fail (e : ε)
  /-- performs an operation; the answer may be an error -/
  | perform (op : ω) (next : Except ε (ans op) → Program ω ans ν σ ε α)
  /-- looks at the surroundings and at the program's own state -/
  | look (next : ν → σ → Program ω ans ν σ ε α)
  /-- replaces the program's own state -/
  | put (state : σ) (next : Program ω ans ν σ ε α)

namespace Program

variable {ω : Type} {ans : ω → Type} {ν σ ε α γ : Type}

/-- Goes on with the result of a program. -/
def bind : Program ω ans ν σ ε α → (α → Program ω ans ν σ ε γ) → Program ω ans ν σ ε γ
  | pure a, f => f a
  | fail e, _ => fail e
  | perform op next, f => perform op fun r => (next r).bind f
  | look next, f => look fun v s => (next v s).bind f
  | put s next, f => put s (next.bind f)

/-- Goes on with the error of a program. -/
def tryCatch : Program ω ans ν σ ε α → (ε → Program ω ans ν σ ε α) → Program ω ans ν σ ε α
  | pure a, _ => pure a
  | fail e, h => h e
  | perform op next, h => perform op fun r => (next r).tryCatch h
  | look next, h => look fun v s => (next v s).tryCatch h
  | put s next, h => put s (next.tryCatch h)

instance : Monad (Program ω ans ν σ ε) where
  pure := pure
  bind := bind

instance : MonadExceptOf ε (Program ω ans ν σ ε) where
  throw := fail
  tryCatch := tryCatch

/-- The program that a result or an error is. -/
def ofExcept : Except ε α → Program ω ans ν σ ε α
  | .ok a => pure a
  | .error e => fail e

/-- Performs one operation; its error is the program's. -/
def call (op : ω) : Program ω ans ν σ ε (ans op) := perform op ofExcept

/-- The view of the surroundings. -/
def view : Program ω ans ν σ ε ν := look fun v _ => pure v

/-- The program's own state. -/
def state : Program ω ans ν σ ε σ := look fun _ s => pure s

/-- Changes the program's own state. -/
def modifyState (f : σ → σ) : Program ω ans ν σ ε Unit := look fun _ s => put (f s) (pure ())

/-- A question about the view that may fail. -/
def ask (f : ν → Except ε α) : Program ω ans ν σ ε α := look fun v _ => ofExcept (f v)

theorem pure_bind (a : α) (f : α → Program ω ans ν σ ε γ) : (pure a).bind f = f a := rfl

theorem bind_pure (p : Program ω ans ν σ ε α) : p.bind pure = p := by
  induction p with
  | pure a => rfl
  | fail e => rfl
  | perform op next ih => simp [bind, ih]
  | look next ih => simp [bind, ih]
  | put s next ih => simp [bind, ih]

theorem bind_assoc {δ : Type} (p : Program ω ans ν σ ε α) (f : α → Program ω ans ν σ ε γ)
    (g : γ → Program ω ans ν σ ε δ) : (p.bind f).bind g = p.bind fun a => (f a).bind g := by
  induction p with
  | pure a => rfl
  | fail e => rfl
  | perform op next ih => simp [bind, ih]
  | look next ih => simp [bind, ih]
  | put s next ih => simp [bind, ih]

end Program

end ProductModel
