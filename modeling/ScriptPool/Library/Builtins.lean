import ScriptPool.Library.Basic

namespace ScriptPool.Library

/-- Makes a handle of the coordinator. It fails at once where no runtime can be reached, rather
than at the first method call. -/
def coordinatorFunction : HostFunction := fun _ _ => do
  let available ← .ask .findRuntime
  if available then
    let handle ← .ask .mintHandle
    pure [.handle handle]
  else
    .throw .runtimeUnavailable

/-- Prints the texts of its arguments on one line, separated by tabs. -/
def printFunction : HostFunction := fun _ arguments => do
  .ask (.print ("\t".intercalate (arguments.map Value.display)))
  pure []

/-- The type name of its first argument. -/
def typeFunction : HostFunction := fun _ arguments =>
  pure [.string (arguments.head?.getD .nil).typeName]

/-- The library of a fresh engine. -/
def builtins : Library :=
  ⟨[("Coordinator", coordinatorFunction), ("print", printFunction), ("type", typeFunction)]⟩

end ScriptPool.Library
