import ScriptPool.Bag.Call
import ScriptPool.Engine.Globals

/-!
Tasks: deferred calls together with the values of their parameters.

A task is captured when it is submitted. Each global that its call names is taken out of the
submitting context once, so later writes there do not reach the task.
-/

namespace ScriptPool

/-- The values of the globals that a call names, in the order in which they were captured. -/
abbrev Snapshot := List (String × Value)

/-- A call waiting to be executed. The snapshot is absent if the call names no global, or once a
worker has taken it. -/
structure Task where
  call : Call
  snapshot? : Option Snapshot

namespace Snapshot

def get? (s : Snapshot) (name : String) : Option Value :=
  s.lookup name

/-- Captures the globals with the given names that are not captured yet. -/
def capture (captured : Snapshot) : (names : List String) → Globals → Snapshot × Globals
  | [], g => (captured, g)
  | name :: rest, g =>
    if (captured.get? name).isSome then capture captured rest g
    else
      let (value, g) := g.takeOut name
      capture (captured ++ [(name, value)]) rest g

end Snapshot

namespace Task

/-- Captures a call from the globals of the submitting context. -/
def capture (call : Call) (g : Globals) : Task × Globals :=
  if call.parameters.isEmpty then (⟨call, none⟩, g)
  else
    let (snapshot, g) := Snapshot.capture [] call.parameters g
    (⟨call, some snapshot⟩, g)

def function (t : Task) : String :=
  t.call.function

/-- The task after a worker has taken its snapshot. -/
def withoutSnapshot (t : Task) : Task :=
  { t with snapshot? := none }

/-- Loads the snapshot into the globals of the executing context. -/
def loadSnapshot (t : Task) (g : Globals) : Globals :=
  (t.snapshot?.getD []).foldl (fun g entry => g.putIn entry.1 entry.2) g

/-- The arguments of the call, globals being read from the executing context. -/
def argumentValues (t : Task) (g : Globals) : List Value :=
  t.call.arguments.map fun
    | .global name => g.get name
    | .literal value => value

end Task

end ScriptPool
