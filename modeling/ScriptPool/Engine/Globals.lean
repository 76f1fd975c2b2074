import ScriptPool.Value.Transfer

/-!
The globals of an execution context.

An unset global reads as `none`, and setting a global to `nil` clears it. Taking a global out moves
the handles in it: the copy goes away with their tags and the tagged remainder stays, written back
only if it holds a handle at all.
-/

namespace ScriptPool

/-- Named values. No name occurs twice and no value is `nil`. -/
structure Globals where
  entries : List (String × Value)

namespace Globals

def empty : Globals := ⟨[]⟩

def get? (g : Globals) (name : String) : Option Value :=
  g.entries.lookup name

/-- The value of a global, `nil` if it is unset. -/
def get (g : Globals) (name : String) : Value :=
  (g.get? name).getD .nil

/-- The globals without one of them. -/
def erase (g : Globals) (name : String) : Globals :=
  ⟨g.entries.filter fun entry => entry.1 != name⟩

/-- Sets a global; `nil` clears it. -/
def set (g : Globals) (name : String) (value : Value) : Globals :=
  if value.isNil then g.erase name else ⟨(name, value) :: (g.erase name).entries⟩

/-- The number of globals that are set. -/
def size (g : Globals) : Nat :=
  g.entries.length

/-- The names that are set, in code point order. -/
def names (g : Globals) : List String :=
  (g.entries.map (·.1)).mergeSort fun a b => a ≤ b

/-- The globals with their names, in the order of `names`. -/
def sorted (g : Globals) : List (String × Value) :=
  g.names.map fun name => (name, g.get name)

/-- Takes a global out for another place: its value, and the globals left behind. -/
def takeOut (g : Globals) (name : String) : Value × Globals :=
  match g.get? name with
  | none => (.nil, g)
  | some value =>
    let (copy, rest) := value.transfer
    (copy, if rest.containsHandles then g.set name rest else g)

/-- Stores a value that came from another place. -/
def putIn (g : Globals) (name : String) (value : Value) : Globals :=
  g.set name value.transfer.1

private theorem lookup_filter_ne_self (entries : List (String × Value)) (name : String) :
    (entries.filter fun entry => entry.1 != name).lookup name = none := by
  induction entries with
  | nil => rfl
  | cons entry rest ih =>
      obtain ⟨n, v⟩ := entry
      by_cases h : n = name
      · simpa [List.filter_cons, h] using ih
      · have h' : (name == n) = false := by simpa using Ne.symm h
        simpa [List.filter_cons, h, List.lookup_cons, h'] using ih

private theorem lookup_filter_ne_other (entries : List (String × Value)) {name other : String}
    (h : other ≠ name) :
    (entries.filter fun entry => entry.1 != name).lookup other = entries.lookup other := by
  induction entries with
  | nil => rfl
  | cons entry rest ih =>
      obtain ⟨n, v⟩ := entry
      by_cases hn : n = name
      · subst hn
        have h' : (other == n) = false := by simpa using h
        simpa [List.filter_cons, List.lookup_cons, h'] using ih
      · simp [hn, List.lookup_cons, ih]

@[simp] theorem get?_erase_self (g : Globals) (name : String) : (g.erase name).get? name = none :=
  lookup_filter_ne_self g.entries name

theorem get?_erase_of_ne (g : Globals) {name other : String} (h : other ≠ name) :
    (g.erase name).get? other = g.get? other :=
  lookup_filter_ne_other g.entries h

theorem get?_set_self (g : Globals) (name : String) (value : Value) :
    (g.set name value).get? name = if value.isNil then none else some value := by
  unfold set
  split
  · exact get?_erase_self g name
  · simp [get?]

theorem get?_set_of_ne (g : Globals) {name other : String} (value : Value) (h : other ≠ name) :
    (g.set name value).get? other = g.get? other := by
  unfold set
  split
  · exact get?_erase_of_ne g h
  · have h' : (other == name) = false := by simpa using h
    have he := get?_erase_of_ne g h
    simp only [get?, erase] at he
    simp [get?, List.lookup_cons, h', erase, he]

end Globals

end ScriptPool
