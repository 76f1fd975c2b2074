import ScriptPool.Engine.Execution
import ScriptPool.Outline.Basic
import ScriptPool.Value.Transfer

namespace ScriptPool

def Identity.outline (id : Identity) : Outline :=
  .word id.text

def Handle.outline (h : Handle) : Outline :=
  .record "HostHandle"
    [("id", h.identity.outline), ("class", .text h.object.className),
      ("ownership", .word (if h.isMoved then "Moved" else "Owned"))]

namespace Value

mutual

def outline : Value → Outline
  | .nil => .word "Nil"
  | .boolean b => .tuple "Boolean" [.boolean b]
  | .number n => .tuple "Number" [.word n.precise]
  | .string s => .tuple "String" [.text s]
  | .lightRef address => .tuple "LightRef" [.number address]
  | .table entries =>
    .tuple "Table" [.record "Table" [("entries", .sequence (entryOutlines entries))]]
  | .handle h => .tuple "Handle" [h.outline]

def entryOutlines : Table → List Outline
  | [] => []
  | (key, value) :: rest => .tuple "" [outline key, outline value] :: entryOutlines rest

end

end Value

def PoolError.outline : PoolError → Outline
  | .malformedCall text reason =>
    .record "MalformedCall" [("text", .text text), ("reason", .text reason)]
  | .invalidSectionId typeName => .tuple "InvalidSectionId" [.text typeName]
  | .resizeFromTask => .word "ResizeFromTask"
  | .shutDown => .word "ShutDown"
  | .workerStart id reason => .record "WorkerStart" [("id", .number id), ("reason", .text reason)]

def ScriptError.outline : ScriptError → Outline
  | .functionNotFound name => .tuple "FunctionNotFound" [.text name]
  | .runtime function message =>
    .record "Runtime" [("function", .text function), ("message", .text message)]
  | .panic function message =>
    .record "Panic" [("function", .text function), ("message", .text message)]
  | .load chunk line message =>
    .record "Load" [("chunk", .text chunk), ("line", .number line), ("message", .text message)]
  | .runtimeUnavailable => .word "RuntimeUnavailable"
  | .parallel cause => .tuple "Parallel" [cause.outline]
  | .contextCreation reason => .tuple "ContextCreation" [.text reason]

/-- The outline of the outcome of a call. -/
def Invocation.outline : Invocation → Outline
  | .completed results => .tuple "Completed" [.sequence (results.map Value.outline)]
  | .suspended results => .tuple "Suspended" [.sequence (results.map Value.outline)]
  | .errored e => .tuple "Errored" [e.outline]

end ScriptPool
