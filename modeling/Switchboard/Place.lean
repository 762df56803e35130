/-!
# Places

A program in a monad `m` may keep a value of type `σ` somewhere inside its own state. A place is
the access to that value: one atomic step reads it, answers, and leaves a new value behind.
Operations that call back into the program while the value may change (a teardown, a handler, an
endpoint) are written once, against a place, and work wherever the value is kept.
-/
namespace Switchboard

/-- A program that keeps a state runs up to a bind, and what is bound to it after that. -/
theorem run_bind {σ α β : Type} (x : StateM σ α) (f : α → StateM σ β) (s : σ) :
    (x >>= f).run s = (f (x.run s).1).run (x.run s).2 := rfl

/-- A panic that unwinds out of a job, with its text. -/
structure Panic where
  text : String
deriving DecidableEq

/-- The access of programs in `m` to a value of type `σ`. -/
structure Place (m : Type → Type) (σ : Type) where
  step : {α : Type} → (σ → α × σ) → m α

namespace Place

variable {m : Type → Type} {σ τ : Type}

/-- The present value. -/
def get (p : Place m σ) : m σ := p.step fun s => (s, s)

/-- Replaces the value by its image under `f`. -/
def modify (p : Place m σ) (f : σ → σ) : m Unit := p.step fun s => ((), f s)

/-- The whole state of a program that keeps nothing else. -/
def whole [MonadStateOf σ m] : Place m σ where
  step f := modifyGet f

/-- The part of a state that `read` shows and `write` replaces. -/
def part [MonadStateOf τ m] (read : τ → σ) (write : τ → σ → τ) : Place m σ where
  step f := modifyGet fun t => let (a, s) := f (read t); (a, write t s)

end Place
end Switchboard
