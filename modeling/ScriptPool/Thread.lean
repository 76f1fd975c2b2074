/-!
Threads, and procedures cut into steps.

A procedure that a thread is carrying out is a state that says where in it the thread stands. One
step performs a single operation on the shared state and leaves the thread at the next place, or at
the end with a result.
-/

namespace ScriptPool

/-- A thread of the host program, or the thread of a worker, named by the worker's serial
number. -/
inductive ThreadId where
  | host (index : Nat)
  | worker (serial : Nat)
  deriving DecidableEq

/-- Where a step leaves a procedure. -/
inductive Stage (σ ρ : Type) where
  | going (place : σ)
  | over (result : ρ)

namespace Stage

variable {σ τ ρ ρ' : Type}

/-- The stage of a procedure that carries out another one and then goes on by itself. -/
def embed (wrap : σ → τ) (next : ρ → τ) : Stage σ ρ → Stage τ ρ'
  | .going place => .going (wrap place)
  | .over result => .going (next result)

end Stage

end ScriptPool
