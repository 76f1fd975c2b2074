import ScriptPool.Library.Builtins
import ScriptPool.Value.Table

namespace ScriptPool.Library

/-- The argument at a position, `nil` if there is none. -/
private def argument (arguments : List Value) (i : Nat) : Value :=
  (arguments[i]?).getD .nil

/-- The text of the argument at a position. -/
private def argumentText (arguments : List Value) (i : Nat) : String :=
  (argument arguments i).display

/-- The sum of the numbers among some values, from left to right. -/
def sum (values : List Value) : Number.Double :=
  (values.filterMap Value.asNumber?).foldl Number.Double.add .zero

/-- The word for a value's ownership: the tag of a handle, the type name of anything else. -/
def ownershipWord : Value → String
  | .handle h => if h.isMoved then "moved" else "owned"
  | v => v.typeName

/-- Goes on only where a runtime can be reached. -/
private def withRuntime (next : Program (List Value)) : Program (List Value) := do
  let available ← .ask .findRuntime
  if available then next else .throw .runtimeUnavailable

/-- Makes a request; its failure is a failure of the calling function. -/
private def demand (r : Request) : Program Nat := do
  match ← Program.ask (.request r) with
  | .ok size => pure size
  | .error e => .fail (.message e.message)

/-- Makes requests one after another. -/
private def demandAll : List Request → Program Unit
  | [] => pure ()
  | r :: rest => do
    let _ ← demand r
    demandAll rest

/-! ### Values -/

private def identityFunction : HostFunction := fun _ arguments => pure arguments

private def oneFunction : HostFunction := constantFunction [Value.ofCount 1]

private def noneFunction : HostFunction := constantFunction []

private def pairFunction : HostFunction := constantFunction [Value.ofCount 1, Value.ofCount 2]

private def countFunction : HostFunction := fun _ arguments =>
  pure [Value.ofCount arguments.length]

private def addFunction : HostFunction := fun _ arguments => pure [.number (sum arguments)]

private def concatFunction : HostFunction := fun _ arguments =>
  pure [.string (String.join (arguments.map Value.display))]

private def sequenceFunction : HostFunction := fun _ arguments =>
  pure [.table (Table.ofSequence arguments)]

private def tableSetFunction : HostFunction := fun _ arguments =>
  let table := (argument arguments 0).asTable?.getD []
  pure [.table (Table.set table (argument arguments 1) (argument arguments 2))]

private def tableGetFunction : HostFunction := fun _ arguments =>
  let table := (argument arguments 0).asTable?.getD []
  pure [(Table.get? table (argument arguments 1)).getD .nil]

private def ownershipFunction : HostFunction := fun _ arguments =>
  pure (arguments.map fun v => .string (ownershipWord v))

private def ownNameFunction : HostFunction := fun calledAs _ => pure [.string calledAs]

/-! ### Failing -/

private def failFunction : HostFunction := fun _ arguments =>
  .fail (.message (argumentText arguments 0))

private def failContextFunction : HostFunction := fun _ arguments =>
  .fail (.message (argumentText arguments 2 ++ ": " ++ argumentText arguments 1 ++ ": " ++
    argumentText arguments 0))

private def failScriptFunction : HostFunction := fun calledAs arguments =>
  .throw (.runtime calledAs (argumentText arguments 0))

private def failRuntimeFunction : HostFunction := fun _ _ =>
  .fail (.message PoolError.shutDown.message)

private def panicFunction : HostFunction := fun _ arguments =>
  .fail (.panic (argumentText arguments 0))

private def panicStaticFunction : HostFunction := fun _ _ => .fail (.panic "static text")

private def panicUnknownFunction : HostFunction := fun _ _ => .fail (.panic "unknown panic")

/-! ### The calling context -/

private def suspendFunction : HostFunction := fun _ arguments => do
  .ask .suspend
  pure arguments

private def readGlobalFunction : HostFunction := fun _ arguments => do
  let value ← .ask (.readGlobal (argumentText arguments 0))
  pure [value.getD .nil]

private def writeGlobalFunction : HostFunction := fun _ arguments => do
  .ask (.writeGlobal (argumentText arguments 0) (argument arguments 1))
  pure []

private def writeThenFailFunction : HostFunction := fun _ arguments => do
  .ask (.writeGlobal (argumentText arguments 0) (argument arguments 1))
  .fail (.message "after set")

private def globalNamesFunction : HostFunction := fun _ _ => do
  let names ← .ask .globalNames
  pure [.table (Table.ofSequence (names.map .string))]

private def callFunction : HostFunction := fun _ arguments => do
  let answer ← .ask (.call (argumentText arguments 0) arguments.tail)
  .ofExcept answer

private def loadFunction : HostFunction := fun _ arguments => do
  let answer ← .ask (.load (argumentText arguments 0) (argumentText arguments 1))
  .ofExcept answer
  pure []

/-! ### The runtime -/

private def submitFunction : HostFunction := fun _ arguments => withRuntime do
  demandAll (arguments.map fun v => .parallel v.display)
  pure []

private def joinFunction : HostFunction := fun _ arguments => withRuntime do
  let _ ← demand (.join (argumentText arguments 0))
  pure [.string "joined"]

private def joinAllFunction : HostFunction := fun _ _ => withRuntime do
  let _ ← demand .joinAll
  pure [.string "joined"]

private def resizeFunction : HostFunction := fun _ arguments => withRuntime do
  let size ← demand (.resize ((argument arguments 0).asCount?.getD 0))
  pure [Value.ofCount size]

private def tryResizeFunction : HostFunction := fun _ arguments => withRuntime do
  match ← Program.ask (.request (.resize ((argument arguments 0).asCount?.getD 0))) with
  | .ok size => pure [Value.ofCount size]
  | .error e => pure [.string e.message]

private def acquireFunction : HostFunction := fun _ arguments => withRuntime do
  let _ ← demand (.acquire (argument arguments 0))
  pure []

private def releaseFunction : HostFunction := fun _ arguments => withRuntime do
  let _ ← demand (.release (argument arguments 0))
  pure []

/-! ### Meeting places -/

private def noteFunction : HostFunction := fun _ arguments => do
  .ask (.note (",".intercalate (arguments.map Value.display)))
  pure arguments

private def gateFunction : HostFunction := fun _ arguments => do
  .ask (.passGate (argumentText arguments 0))
  pure arguments

private def bumpFunction : HostFunction := fun _ arguments => withRuntime do
  let _ ← demand (.acquire (argument arguments 0))
  let n ← .ask .readCounter
  .ask (.writeCounter (n + 1))
  let _ ← demand (.release (argument arguments 0))
  pure []

private def guardedNoteFunction : HostFunction := fun _ arguments => withRuntime do
  .ask (.note ("want " ++ argumentText arguments 0))
  let _ ← demand (.acquire (argument arguments 0))
  .ask (.note ("got " ++ argumentText arguments 0))
  let _ ← demand (.release (argument arguments 0))
  pure []

/-- The builtins and the functions of the workbench. -/
def workbench : Library :=
  ⟨builtins.entries ++
    [("id", identityFunction), ("one", oneFunction), ("none", noneFunction),
      ("pair", pairFunction), ("count", countFunction), ("add", addFunction),
      ("concat", concatFunction), ("seq", sequenceFunction), ("tset", tableSetFunction),
      ("tget", tableGetFunction), ("fail", failFunction), ("fail_context", failContextFunction),
      ("fail_script", failScriptFunction), ("fail_runtime", failRuntimeFunction),
      ("panic", panicFunction), ("panic_str", panicStaticFunction),
      ("panic_any", panicUnknownFunction), ("suspend", suspendFunction),
      ("fname", ownNameFunction), ("getg", readGlobalFunction), ("setg", writeGlobalFunction),
      ("setg_fail", writeThenFailFunction), ("names", globalNamesFunction),
      ("call", callFunction), ("load", loadFunction), ("ownership", ownershipFunction),
      ("rt_parallel", submitFunction), ("rt_join", joinFunction),
      ("rt_joinall", joinAllFunction), ("rt_np", resizeFunction),
      ("rt_try_np", tryResizeFunction), ("acquire", acquireFunction),
      ("release", releaseFunction), ("note", noteFunction), ("gate", gateFunction),
      ("bump", bumpFunction), ("guarded_note", guardedNoteFunction)]⟩

end ScriptPool.Library
