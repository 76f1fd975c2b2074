import ScriptPool.Engine.Globals
import ScriptPool.Error
import ScriptPool.Report.Event

namespace ScriptPool

/-- The place of a context in the list of all contexts ever made. -/
abbrev ContextId := Nat

/-- The number of a parallel runtime that contexts can be bound to. -/
abbrev RuntimeId := Nat

/-- One independent instance of the engine's global state. -/
structure Context where
  globals : Globals
  /-- The runtime that the context was bound to, whether or not it is still there. -/
  binding? : Option RuntimeId

/-- What the host program shares with its functions: a board of notes, gates, a counter, and the
text that was printed. -/
structure Board where
  notes : List String
  openGates : List String
  /-- Whether all gates have been opened. -/
  isOpenHouse : Bool
  counter : Nat
  printed : String

/-- Whether a gate can be passed. -/
def Board.isOpen (b : Board) (gate : String) : Bool :=
  b.isOpenHouse || gate ∈ b.openGates

/-- The state of a script engine and its host. -/
structure Engine where
  /-- The name under which the engine is reported. -/
  name : String
  contexts : List Context
  /-- The contexts that workers or tokens hold, each once. -/
  registered : List ContextId
  /-- How many more contexts may be spawned; `none` is without limit. -/
  spawnBudget? : Option Nat
  /-- The runtimes that can be reached. -/
  liveRuntimes : List RuntimeId
  /-- How many identities were minted. -/
  minted : Nat
  board : Board
  /-- What was reported, latest first. -/
  reports : List Event

namespace Engine

/-- An engine without contexts. -/
def initial (name : String) (spawnBudget? : Option Nat) : Engine where
  name := name
  contexts := []
  registered := []
  spawnBudget? := spawnBudget?
  liveRuntimes := []
  minted := 0
  board := ⟨[], [], false, 0, ""⟩
  reports := []

def report (e : Engine) (event : Event) : Engine :=
  { e with reports := event :: e.reports }

/-- All events in the order in which they were reported. -/
def history (e : Engine) : List Event :=
  e.reports.reverse

/-- The warnings and errors in the order in which they were reported. -/
def alarms (e : Engine) : List Event :=
  e.history.filter Event.isAlarm

def globals (e : Engine) (c : ContextId) : Globals :=
  match e.contexts[c]? with
  | some context => context.globals
  | none => .empty

def setGlobals (e : Engine) (c : ContextId) (g : Globals) : Engine :=
  { e with contexts := e.contexts.modify c fun context => { context with globals := g } }

def get? (e : Engine) (c : ContextId) (name : String) : Option Value :=
  (e.globals c).get? name

def set (e : Engine) (c : ContextId) (name : String) (value : Value) : Engine :=
  e.setGlobals c ((e.globals c).set name value)

/-- Makes a context that stands alone. -/
def createContext (e : Engine) : ContextId × Engine :=
  (e.contexts.length, { e with contexts := e.contexts ++ [⟨.empty, none⟩] })

def bind (e : Engine) (c : ContextId) (runtime : RuntimeId) : Engine :=
  { e with contexts := e.contexts.modify c fun context =>
      { context with binding? := some runtime } }

/-- The runtime that the code of a context reaches. -/
def runtime? (e : Engine) (c : ContextId) : Option RuntimeId :=
  match e.contexts[c]? with
  | some context => context.binding?.filter fun r => r ∈ e.liveRuntimes
  | none => none

/-- The reason why a context is refused. -/
def budgetExhausted : ScriptError :=
  .contextCreation "context budget exhausted"

/-- Spawns a context for a worker, unless the budget is used up. -/
def spawnContext (e : Engine) : Except ScriptError ContextId × Engine :=
  match e.spawnBudget? with
  | some 0 => (.error budgetExhausted, e)
  | budget =>
    let (c, e) := { e with spawnBudget? := budget.map (· - 1) }.createContext
    (.ok c, e.report .contextSpawned)

def register (e : Engine) (c : ContextId) : Engine :=
  { e with registered := c :: e.registered.filter (· != c) }

def unregister (e : Engine) (c : ContextId) : Engine :=
  { e with registered := e.registered.filter (· != c) }

/-- Makes a fresh handle of the coordinator. -/
def mintHandle (e : Engine) : Handle × Engine :=
  (⟨⟨.minted, e.minted⟩, .coordinator, .owned⟩, { e with minted := e.minted + 1 })

/-- Prints a line, which is reported too. -/
def print (e : Engine) (line : String) : Engine :=
  { e with board := { e.board with printed := e.board.printed ++ line ++ "\n" } }.report
    (.printed line)

def note (e : Engine) (text : String) : Engine :=
  { e with board := { e.board with notes := e.board.notes ++ [text] } }

/-- Takes all notes off the board. -/
def takeNotes (e : Engine) : List String × Engine :=
  (e.board.notes, { e with board := { e.board with notes := [] } })

/-- Opens a gate for good. -/
def openGate (e : Engine) (gate : String) : Engine :=
  { e with board := { e.board with openGates := gate :: e.board.openGates } }

/-- Opens all gates for good. -/
def openAllGates (e : Engine) : Engine :=
  { e with board := { e.board with isOpenHouse := true } }

def setCounter (e : Engine) (n : Nat) : Engine :=
  { e with board := { e.board with counter := n } }

theorem globals_setGlobals_of_ne (e : Engine) {c d : ContextId} (g : Globals) (h : d ≠ c) :
    (e.setGlobals c g).globals d = e.globals d := by
  simp [setGlobals, globals, Ne.symm h]

theorem globals_setGlobals_self (e : Engine) {c : ContextId} (g : Globals)
    (h : c < e.contexts.length) : (e.setGlobals c g).globals c = g := by
  simp [setGlobals, globals, h]

end Engine

end ScriptPool
