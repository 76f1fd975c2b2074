import Mathlib.Algebra.Order.BigOperators.Group.List
import Mathlib.Algebra.Order.Ring.Nat
import ScriptPool.Proofs.Bag.Capture

namespace ScriptPool

namespace Value

mutual

/-- How often the value owns the handle with an identity. -/
def owns (i : Identity) : Value → Nat
  | .handle h => if h.identity = i ∧ h.ownership = .owned then 1 else 0
  | .table entries => entriesOwn i entries
  | _ => 0

/-- How often the keys and values of a table own the handle with an identity. -/
def entriesOwn (i : Identity) : Table → Nat
  | [] => 0
  | (key, value) :: rest => owns i key + owns i value + entriesOwn i rest

end

variable {i : Identity}

theorem entriesOwn_append (t t' : Table) :
    entriesOwn i (t ++ t') = entriesOwn i t + entriesOwn i t' := by
  induction t with
  | nil => rw [List.nil_append, entriesOwn, Nat.zero_add]
  | cons entry t ih =>
      obtain ⟨key, value⟩ := entry
      rw [List.cons_append, entriesOwn, entriesOwn, ih, ← Nat.add_assoc]

mutual

theorem owns_transfer : ∀ v : Value, v.transfer.1.owns i = v.owns i ∧ v.transfer.2.owns i = 0
  | .nil | .boolean _ | .number _ | .string _ | .lightRef _ => ⟨rfl, rfl⟩
  | .handle h => ⟨rfl, if_neg fun hmoved => by cases hmoved.2⟩
  | .table entries => by
      obtain ⟨hcopy, hleft⟩ := owns_transferEntries entries []
      rw [entriesOwn, Nat.zero_add] at hcopy
      exact ⟨hcopy, hleft⟩

theorem owns_transferEntries : ∀ entries copy : Table,
    entriesOwn i (transferEntries copy entries).1 = entriesOwn i copy + entriesOwn i entries ∧
      entriesOwn i (transferEntries copy entries).2 = 0
  | [], _ => ⟨rfl, rfl⟩
  | (key, value) :: rest, copy => by
      obtain ⟨hkey, hkey'⟩ := owns_transfer key
      obtain ⟨hvalue, hvalue'⟩ := owns_transfer value
      obtain ⟨hcopy, hleft⟩ := owns_transferEntries rest
        (copy.push key.transfer.1 value.transfer.1)
      constructor
      · rw [transferEntries, hcopy, Table.push, entriesOwn_append, entriesOwn, entriesOwn, hkey,
          hvalue, entriesOwn]
        omega
      · rw [transferEntries, entriesOwn, hkey', hvalue', hleft]

end

mutual

theorem containsHandles_transfer : ∀ v : Value, v.transfer.2.containsHandles = v.containsHandles
  | .nil | .boolean _ | .number _ | .string _ | .lightRef _ | .handle _ => rfl
  | .table entries => entriesContainHandles_transfer entries []

theorem entriesContainHandles_transfer : ∀ entries copy : Table,
    entriesContainHandles (transferEntries copy entries).2 = entriesContainHandles entries
  | [], _ => rfl
  | (key, value) :: rest, copy => by
      rw [transferEntries, entriesContainHandles, containsHandles_transfer key,
        containsHandles_transfer value, entriesContainHandles_transfer rest,
        entriesContainHandles]

end

mutual

theorem owns_of_plain : ∀ {v : Value}, v.containsHandles = false → v.owns i = 0
  | .nil, _ | .boolean _, _ | .number _, _ | .string _, _ | .lightRef _, _ => rfl
  | .table _, h => entriesOwn_of_plain h

theorem entriesOwn_of_plain : ∀ {entries : Table}, entriesContainHandles entries = false →
    entriesOwn i entries = 0
  | [], _ => rfl
  | (key, value) :: rest, h => by
      simp only [entriesContainHandles, Bool.or_eq_false_iff] at h
      obtain ⟨⟨hkey, hvalue⟩, hrest⟩ := h
      rw [entriesOwn, owns_of_plain hkey, owns_of_plain hvalue, entriesOwn_of_plain hrest]

end

end Value

namespace Globals

/-- How often the globals own the handle with an identity. -/
def owns (g : Globals) (i : Identity) : Nat :=
  (g.entries.map fun entry => entry.2.owns i).sum

/-- The globals without some of them. -/
def without (g : Globals) (names : List String) : Globals :=
  ⟨g.entries.filter fun entry => entry.1 ∉ names⟩

variable {g : Globals} {i : Identity} {name : String} {names : List String} {value : Value}

@[simp] theorem without_nil (g : Globals) : g.without [] = g := by
  simp [without]

theorem without_erase (g : Globals) (name : String) (names : List String) :
    (g.erase name).without names = g.without (name :: names) := by
  simp only [without, erase, List.filter_filter]
  congr 2
  funext entry
  by_cases hname : entry.1 = name
  · simp [hname]
  · simp [hname]

theorem owns_without_le (g : Globals) (names : List String) (i : Identity) :
    (g.without names).owns i ≤ g.owns i :=
  (List.filter_sublist.map _).sum_le_sum fun _ _ => Nat.zero_le _

theorem owns_cons (entry : String × Value) (entries : List (String × Value)) (i : Identity) :
    owns ⟨entry :: entries⟩ i = entry.2.owns i + owns ⟨entries⟩ i :=
  List.sum_cons

theorem owns_without_set (g : Globals) (name : String) (value : Value) (names : List String)
    (i : Identity) : ((g.set name value).without names).owns i =
      (g.without (name :: names)).owns i + if name ∈ names then 0 else value.owns i := by
  unfold set
  split
  · next hnil =>
      have hvalue : value.owns i = 0 := by rw [Value.isNil_iff.mp hnil]; rfl
      simp [without_erase, hvalue]
  · rw [← without_erase]
    split
    · next hname => simp [without, hname]
    · next hname =>
        have hcons : without ⟨(name, value) :: (g.erase name).entries⟩ names =
            ⟨(name, value) :: ((g.erase name).without names).entries⟩ := by
          simp [without, hname]
        rw [hcons, owns_cons, Nat.add_comm]

theorem owns_set (g : Globals) (name : String) (value : Value) (i : Identity) :
    (g.set name value).owns i = (g.without [name]).owns i + value.owns i := by
  simpa using owns_without_set g name value [] i

theorem owns_without_add_get (g : Globals) (name : String) (i : Identity) :
    (g.without [name]).owns i + (g.get name).owns i ≤ g.owns i := by
  obtain ⟨entries⟩ := g
  induction entries with
  | nil => exact Nat.le_refl 0
  | cons entry entries ih =>
      obtain ⟨other, value⟩ := entry
      rw [owns_cons]
      by_cases hother : other = name
      · subst hother
        have hget : (Globals.mk ((other, value) :: entries)).get other = value := by
          simp [get, get?]
        have hrest : without ⟨(other, value) :: entries⟩ [other] = without ⟨entries⟩ [other] := by
          simp [without]
        rw [hget, hrest, Nat.add_comm]
        exact Nat.add_le_add_left (owns_without_le ⟨entries⟩ [other] i) _
      · have hne : (name == other) = false := by simpa using Ne.symm hother
        have hget : (Globals.mk ((other, value) :: entries)).get name = get ⟨entries⟩ name := by
          simp [get, get?, List.lookup_cons, hne]
        have hrest : without ⟨(other, value) :: entries⟩ [name] =
            ⟨(other, value) :: (without ⟨entries⟩ [name]).entries⟩ := by
          simp [without, hother]
        rw [hget, hrest, owns_cons]
        exact (Nat.add_assoc ..).trans_le (Nat.add_le_add_left ih _)

theorem owns_get_le (g : Globals) (name : String) (i : Identity) :
    (g.get name).owns i ≤ g.owns i :=
  (Nat.le_add_left _ _).trans (g.owns_without_add_get name i)

theorem takeOut_eq_capture (g : Globals) (name : String) :
    g.takeOut name = ((captureGlobal (g.get? name)).1,
      (captureGlobal (g.get? name)).2.elim g (g.set name)) := by
  unfold takeOut captureGlobal
  cases g.get? name with
  | none => rfl
  | some value =>
      dsimp only
      split
      · rfl
      · rfl

end Globals

theorem owns_captureGlobal (value? : Option Value) (i : Identity) :
    (captureGlobal value?).1.owns i = (value?.getD .nil).owns i := by
  cases value? with
  | none => rfl
  | some value => exact (Value.owns_transfer value).1

theorem owns_left {value? : Option Value} {left : Value} (h : (captureGlobal value?).2 = some left)
    (i : Identity) : left.owns i = 0 := by
  cases value? with
  | none => cases h
  | some value =>
      simp only [captureGlobal] at h
      split at h
      · cases h
        exact (Value.owns_transfer value).2
      · cases h

theorem owns_of_not_left {value? : Option Value} (h : (captureGlobal value?).2 = none)
    (i : Identity) : (value?.getD .nil).owns i = 0 := by
  cases value? with
  | none => rfl
  | some value =>
      simp only [captureGlobal] at h
      split at h
      · cases h
      · next hplain =>
          rw [Value.containsHandles_transfer, Bool.not_eq_true] at hplain
          exact Value.owns_of_plain hplain

namespace Globals

theorem owns_takeOut_set (g : Globals) (name : String) (value : Value) (names : List String)
    (i : Identity) :
    ((g.set name value).takeOut name).1.owns i = value.owns i ∧
      (((g.set name value).takeOut name).2.without names).owns i =
        (g.without (name :: names)).owns i := by
  have hget : ((g.set name value).get? name).getD .nil = value := get_set_self g name value
  rw [takeOut_eq_capture]
  refine ⟨by rw [owns_captureGlobal, hget], ?_⟩
  cases hleft : (captureGlobal ((g.set name value).get? name)).2 with
  | none =>
      have hvalue := owns_of_not_left hleft i
      rw [hget] at hvalue
      rw [Option.elim_none, owns_without_set, hvalue, ite_self, Nat.add_zero]
  | some left =>
      rw [Option.elim_some, owns_without_set, owns_left hleft i, ite_self, Nat.add_zero,
        owns_without_set, if_pos List.mem_cons_self, Nat.add_zero]
      congr 1
      simp [without]

theorem owns_putIn (g : Globals) (name : String) (value : Value) (i : Identity) :
    (g.putIn name value).owns i = (g.without [name]).owns i + value.owns i := by
  rw [putIn, owns_set, (Value.owns_transfer value).1]

end Globals

/-- How often the values of a snapshot own the handle with an identity. -/
def Snapshot.owns (s : Snapshot) (i : Identity) : Nat :=
  (s.map fun entry => entry.2.owns i).sum

/-- How often the snapshot of a task owns the handle with an identity. -/
def Task.owns (t : Task) (i : Identity) : Nat :=
  Snapshot.owns (t.snapshot?.getD []) i

theorem Snapshot.owns_append_singleton (s : Snapshot) (name : String) (value : Value)
    (i : Identity) : Snapshot.owns (s ++ [(name, value)]) i = s.owns i + value.owns i := by
  simp [Snapshot.owns]

theorem Task.owns_ofCaptured_le (call : Call) (captured : Snapshot) (i : Identity) :
    (Task.ofCaptured call captured).owns i ≤ captured.owns i := by
  unfold Task.ofCaptured Task.owns
  dsimp only
  split
  · exact Nat.zero_le _
  · exact Nat.le_refl _

theorem Task.owns_loadSnapshot_le (t : Task) (g : Globals) (i : Identity) :
    (t.loadSnapshot g).owns i ≤ g.owns i + t.owns i := by
  rw [Task.loadSnapshot, Task.owns]
  induction t.snapshot?.getD [] generalizing g with
  | nil => exact Nat.le_refl _
  | cons entry captured ih =>
      have hput := g.owns_putIn entry.1 entry.2 i
      have hle := g.owns_without_le [entry.1] i
      have hrest := ih (g.putIn entry.1 entry.2)
      rw [List.foldl_cons, Snapshot.owns, List.map_cons, List.sum_cons]
      rw [Snapshot.owns] at hrest
      omega

theorem Task.owns_of_mem_argumentValues {t : Task} {g : Globals} {v : Value} {i : Identity}
    (hplain : t.call.Plain) (hv : v ∈ t.argumentValues g) : v.owns i ≤ g.owns i := by
  obtain ⟨argument, hargument, rfl⟩ := List.mem_map.mp hv
  cases argument with
  | global name => exact g.owns_get_le name i
  | literal value =>
      rw [Value.owns_of_plain (hplain value hargument)]
      exact Nat.zero_le _

end ScriptPool
