import ScriptPool.Engine.Globals

namespace ScriptPool

/-- A value from which no handle can be reached. -/
def Value.Plain (v : Value) : Prop :=
  v.containsHandles = false

/-- Globals from which no handle can be reached. -/
def Globals.Plain (g : Globals) : Prop :=
  ∀ name value, g.get? name = some value → value.Plain

namespace Value

theorem plain_nil : Value.nil.Plain := rfl

mutual

theorem transfer_of_plain : ∀ {v : Value}, v.containsHandles = false → v.transfer = (v, v)
  | .nil, _ | .boolean _, _ | .number _, _ | .string _, _ | .lightRef _, _ => rfl
  | .table entries, h => by
      rw [transfer, transferEntries_of_plain h [], List.nil_append]

theorem transferEntries_of_plain : ∀ {entries : Table}, entriesContainHandles entries = false →
    ∀ copy : Table, transferEntries copy entries = (copy ++ entries, entries)
  | [], _, copy => by rw [transferEntries, List.append_nil]
  | (key, value) :: rest, h, copy => by
      simp only [entriesContainHandles, Bool.or_eq_false_iff] at h
      obtain ⟨⟨hkey, hvalue⟩, hrest⟩ := h
      simp only [transferEntries, transfer_of_plain hkey, transfer_of_plain hvalue,
        transferEntries_of_plain hrest, Table.push, List.append_assoc, List.singleton_append]

end

end Value

namespace Globals

variable {g : Globals} {name : String} {value : Value}

theorem plain_empty : Globals.empty.Plain := by
  intro name value h
  cases h

theorem Plain.get (h : g.Plain) (name : String) : (g.get name).Plain := by
  unfold Globals.get
  cases hname : g.get? name with
  | none => exact Value.plain_nil
  | some value => exact h name value hname

theorem Plain.set (h : g.Plain) (hvalue : value.Plain) : (g.set name value).Plain := by
  intro other found hfound
  by_cases hother : other = name
  · subst hother
    rw [get?_set_self] at hfound
    split at hfound
    · cases hfound
    · cases hfound
      exact hvalue
  · rw [get?_set_of_ne g value hother] at hfound
    exact h other found hfound

theorem putIn_of_plain (h : value.Plain) : g.putIn name value = g.set name value := by
  rw [putIn, Value.transfer_of_plain h]

theorem get_set_self (g : Globals) (name : String) (value : Value) :
    (g.set name value).get name = value := by
  rw [Globals.get, get?_set_self]
  cases value with
  | nil | boolean | number | string | lightRef | table | handle => rfl

theorem get_set_of_ne (g : Globals) {other : String} (h : other ≠ name) :
    (g.set name value).get other = g.get other := by
  rw [Globals.get, get?_set_of_ne g value h, Globals.get]

theorem takeOut_set (h : value.Plain) :
    ((g.set name value).takeOut name) = (value, g.set name value) := by
  unfold takeOut
  rw [get?_set_self]
  cases value with
  | nil => rfl
  | boolean | number | string | lightRef | table | handle =>
      simp only [Value.isNil, Bool.false_eq_true, if_false, Value.transfer_of_plain h]
      rw [if_neg (by rw [h]; exact Bool.false_ne_true)]

end Globals

end ScriptPool
