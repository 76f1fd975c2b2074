import ScriptPool.Script.Program
import ScriptPool.Engine.Basic

namespace ScriptPool

/-- The name of the operation that a request asks for. -/
def Request.operation : Request → String
  | .parallel _ => "parallel"
  | .join _ => "join"
  | .joinAll => "joinall"
  | .acquire _ => "acquire"
  | .release _ => "release"
  | .resize _ => "np"

/-- A runtime that records requests and refuses some operations. -/
structure Recorder where
  /-- The operations that are refused. -/
  refused : List String
  /-- What was requested, oldest first. -/
  requests : List Request

namespace Recorder

/-- The answer to a request that is not refused. -/
def accept : Request → Nat
  | .resize count => count
  | _ => 0

/-- Takes a request down and answers it. -/
def respond (r : Recorder) (request : Request) : Reply × Recorder :=
  (if request.operation ∈ r.refused then .error .shutDown else .ok (accept request),
    { r with requests := r.requests ++ [request] })

end Recorder

/-- Recorders by the numbers under which contexts reach them, in the order in which they were
made. -/
abbrev Recorders := List (RuntimeId × Recorder)

namespace Recorders

/-- Answers a request to one of the recorders; one that is gone has shut down. -/
def respond (runtime : RuntimeId) (request : Request) (rs : Recorders) : Reply × Recorders :=
  match rs.lookup runtime with
  | some r =>
    let (reply, r) := r.respond request
    (reply, rs.map fun entry => if entry.1 = runtime then (runtime, r) else entry)
  | none => (.error .shutDown, rs)

/-- What was requested of each recorder, and the recorders with nothing taken down. -/
def take (rs : Recorders) : List (List Request) × Recorders :=
  (rs.map fun entry => entry.2.requests,
    rs.map fun entry => (entry.1, { entry.2 with requests := [] }))

end Recorders

end ScriptPool
