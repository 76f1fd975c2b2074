import ScriptPool.Value.Table

/-!
Transfer of values between contexts.

A transfer rebuilds tables, copies primitive values and moves handles. It returns the value for the
new place together with what the old place is left with, which differs from what was there only in
the tags of its handles.
-/

namespace ScriptPool

namespace Value

mutual

/-- The value for the new place, and what stays at the old one. -/
def transfer : Value → Value × Value
  | .table entries =>
    let (copy, rest) := transferEntries [] entries
    (.table copy, .table rest)
  | .handle h =>
    let (taken, left) := h.take
    (.handle taken, .handle left)
  | v => (v, v)

/-- Transfers entries in order, the key before the value, adding to a copy under construction. -/
def transferEntries (copy : Table) : Table → Table × Table
  | [] => (copy, [])
  | (key, value) :: rest =>
    let (newKey, oldKey) := transfer key
    let (newValue, oldValue) := transfer value
    let (copied, left) := transferEntries (Table.push copy newKey newValue) rest
    (copied, (oldKey, oldValue) :: left)

end

mutual

/-- Whether some handle can be reached from a value. -/
def containsHandles : Value → Bool
  | .handle _ => true
  | .table entries => entriesContainHandles entries
  | _ => false

/-- Whether some handle can be reached from a key or a value of a table. -/
def entriesContainHandles : Table → Bool
  | [] => false
  | (key, value) :: rest =>
    containsHandles key || containsHandles value || entriesContainHandles rest

end

/-- Transfers several times out of the same place: each round's copy and what was left after it. -/
def transferTimes (v : Value) : Nat → List (Value × Value)
  | 0 => []
  | n + 1 =>
    let (copy, rest) := v.transfer
    (copy, rest) :: transferTimes rest n

end Value

end ScriptPool
