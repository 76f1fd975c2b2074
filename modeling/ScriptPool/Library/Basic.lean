import ScriptPool.Script.Program

namespace ScriptPool

/-- Host functions by name, shared by all contexts of an engine. -/
structure Library where
  entries : List (String × HostFunction)

namespace Library

def find? (l : Library) (name : String) : Option HostFunction :=
  l.entries.lookup name

def contains (l : Library) (name : String) : Bool :=
  (l.find? name).isSome

/-- Adds or replaces a function. -/
def define (l : Library) (name : String) (f : HostFunction) : Library :=
  ⟨(name, f) :: l.entries.filter fun entry => entry.1 != name⟩

/-- The number of functions. -/
def size (l : Library) : Nat :=
  l.entries.length

/-- The names of the functions, in code point order. -/
def names (l : Library) : List String :=
  (l.entries.map (·.1)).mergeSort fun a b => a ≤ b

@[simp] theorem find?_define_self (l : Library) (name : String) (f : HostFunction) :
    (l.define name f).find? name = some f := by
  simp [define, find?]

end Library

/-- A function that always returns the same results. -/
def constantFunction (results : List Value) : HostFunction :=
  fun _ _ => pure results

end ScriptPool
