import ScriptPool.Value.Basic

/-!
Tables: maps that remember the order in which keys were first set.

Setting a key to `nil` clears it, and a key keeps its place and its first spelling while its value
changes. Keys are compared by `Value.equal`.
-/

namespace ScriptPool

namespace Table

/-- The table with the keys `1, 2, …` for a list of items. -/
def ofSequence (items : List Value) : Table :=
  items.zipIdx.map fun item => (Value.ofCount (item.2 + 1), item.1)

/-- The value stored under a key. -/
def get? (t : Table) (key : Value) : Option Value :=
  (t.find? fun entry => entry.1.equal key).map (·.2)

/-- The value stored under a string key. -/
def field? (t : Table) (name : String) : Option Value :=
  (t.find? fun entry => entry.1.asString? = some name).map (·.2)

/-- The table without its first entry for a key. -/
def erase : Table → Value → Table
  | [], _ => []
  | (k, v) :: rest, key => if k.equal key then rest else (k, v) :: erase rest key

/-- The table with the value of the first entry for a key replaced, whatever the new value is. -/
def replace : Table → Value → Value → Table
  | [], _, _ => []
  | (k, v) :: rest, key, value =>
    if k.equal key then (k, value) :: rest else (k, v) :: replace rest key value

/-- An entry added at the end without looking for its key. -/
def push (t : Table) (key value : Value) : Table :=
  t ++ [(key, value)]

def contains (t : Table) (key : Value) : Bool :=
  t.any fun entry => entry.1.equal key

/-- Sets a key: a new key goes to the end, a known one keeps its place, and `nil` clears it. -/
def set (t : Table) (key value : Value) : Table :=
  match t.contains key, value.isNil with
  | true, true => t.erase key
  | true, false => t.replace key value
  | false, true => t
  | false, false => t.push key value

/-- Removes a key and returns what was stored there. -/
def remove (t : Table) (key : Value) : Option Value × Table :=
  (t.get? key, t.erase key)

/-- Overwrites the value of a known key in place; the result tells the old value. -/
def update (t : Table) (key value : Value) : Option Value × Table :=
  (t.get? key, t.replace key value)

@[simp] theorem length_push (t : Table) (key value : Value) :
    (t.push key value).length = t.length + 1 := by
  simp [push]

theorem erase_of_not_contains {t : Table} {key : Value} (h : t.contains key = false) :
    t.erase key = t := by
  induction t with
  | nil => rfl
  | cons entry rest ih =>
      obtain ⟨k, v⟩ := entry
      simp only [contains, List.any_cons, Bool.or_eq_false_iff] at h
      simp [erase, h.1, ih h.2]

end Table

end ScriptPool
