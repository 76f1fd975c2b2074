namespace ScriptPool

/-- An error of a request to the parallel runtime. -/
inductive PoolError where
  /-- The text of a deferred call cannot be read. -/
  | malformedCall (text reason : String)
  /-- The id of a critical section is neither a number nor a string. -/
  | invalidSectionId (typeName : String)
  /-- A resize was asked for by a running task. -/
  | resizeFromTask
  /-- The coordinator no longer takes requests. -/
  | shutDown
  /-- A worker or its context could not be created. -/
  | workerStart (id : Nat) (reason : String)
  deriving DecidableEq

/-- The wording of an error of the runtime. -/
def PoolError.message : PoolError → String
  | .malformedCall text reason => "Malformed call `" ++ text ++ "`: " ++ reason
  | .invalidSectionId typeName => "Invalid critical section id of type " ++ typeName
  | .resizeFromTask => "The worker pool cannot be resized from inside a running task"
  | .shutDown => "Coordinator has shut down"
  | .workerStart id reason => "Failed to start worker " ++ toString id ++ ": " ++ reason

/-- An error of a script or of a function that it called. -/
inductive ScriptError where
  | functionNotFound (name : String)
  /-- The function reported an error of its own. -/
  | runtime (function message : String)
  /-- The function broke off without reporting an error. -/
  | panic (function message : String)
  /-- A chunk failed to parse or to run at a line. -/
  | load (chunk : String) (line : Nat) (message : String)
  /-- No parallel runtime can be reached from the context. -/
  | runtimeUnavailable
  /-- A request to the parallel runtime failed. -/
  | parallel (cause : PoolError)
  | contextCreation (reason : String)
  deriving DecidableEq

namespace ScriptError

def message : ScriptError → String
  | .functionNotFound name => "Function not found: " ++ name
  | .runtime function message => "Error in " ++ function ++ ": " ++ message
  | .panic function message => "Panic in " ++ function ++ ": " ++ message
  | .load chunk line message => chunk ++ ":" ++ toString line ++ ": " ++ message
  | .runtimeUnavailable => "No parallel runtime bound to this context"
  | .parallel cause => "Parallel runtime error: " ++ cause.message
  | .contextCreation reason => "Failed to create execution context: " ++ reason

/-- The line that an error while loading points at. -/
def line? : ScriptError → Option Nat
  | .load _ line _ => some line
  | _ => none

end ScriptError

end ScriptPool
