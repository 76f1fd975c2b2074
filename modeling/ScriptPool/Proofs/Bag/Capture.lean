import ScriptPool.Pool.Requests
import ScriptPool.Proofs.Script.Inline

namespace ScriptPool

/-- The snapshot holds values of globals. -/
def Snapshot.Of (captured : Snapshot) (start : Globals) : Prop :=
  ∀ entry ∈ captured, entry.2 = start.get entry.1

variable {captured : Snapshot} {start g : Globals} {call : Call} {name : String}

theorem Snapshot.isSome_get?_iff :
    (captured.get? name).isSome = true ↔ name ∈ captured.map Prod.fst := by
  induction captured with
  | nil => simp [Snapshot.get?]
  | cons entry captured ih =>
      rw [Snapshot.get?] at ih
      rw [Snapshot.get?, List.lookup_cons, List.map_cons, List.mem_cons, ← ih]
      by_cases hname : name = entry.1
      · simp [hname]
      · have hne : (name == entry.1) = false := by simpa using hname
        simp [hname, hne]

theorem captureGlobal_of_plain {value? : Option Value}
    (h : ∀ value, value? = some value → value.Plain) :
    captureGlobal value? = (value?.getD .nil, none) := by
  cases value? with
  | none => rfl
  | some value =>
      have hplain : value.containsHandles = false := h value rfl
      simp [captureGlobal, Value.transfer_of_plain hplain, hplain]

theorem Snapshot.get_load (hstart : start.Plain) (hof : captured.Of start)
    (h : name ∈ captured.map Prod.fst ∨ g.get name = start.get name) :
    (captured.foldl (fun g entry => g.putIn entry.1 entry.2) g).get name = start.get name := by
  induction captured generalizing g with
  | nil =>
      rcases h with h | h
      · cases h
      · exact h
  | cons entry captured ih =>
      have hvalue : entry.2 = start.get entry.1 := hof entry List.mem_cons_self
      have hput : g.putIn entry.1 entry.2 = g.set entry.1 (start.get entry.1) := by
        rw [hvalue, Globals.putIn_of_plain (hstart.get entry.1)]
      rw [List.foldl_cons, hput]
      apply ih
      · exact fun entry' hentry => hof entry' (List.mem_cons_of_mem _ hentry)
      · by_cases hname : name = entry.1
        · right
          rw [hname, Globals.get_set_self]
        · rw [Globals.get_set_of_ne _ hname]
          rcases h with h | h
          · exact .inl ((List.mem_cons.mp h).resolve_left hname)
          · exact .inr h

theorem Task.argumentValues_eq (task : Task) (g : Globals) :
    task.argumentValues g = task.call.argumentsIn g := by
  apply List.map_congr_left
  intro a _
  cases a with
  | global | literal => rfl

theorem Task.arguments_ofCaptured (hstart : start.Plain) (hof : captured.Of start)
    (hall : ∀ name ∈ call.parameters, name ∈ captured.map Prod.fst) (g : Globals) :
    (Task.ofCaptured call captured).argumentValues
      ((Task.ofCaptured call captured).loadSnapshot g) = call.argumentsIn start := by
  rw [Task.argumentValues_eq]
  apply Call.argumentsIn_congr
  intro name hname
  have hsome : (Task.ofCaptured call captured).snapshot? = some captured := by
    have hne : call.parameters ≠ [] := List.ne_nil_of_mem hname
    simp [Task.ofCaptured, hne]
  rw [Task.loadSnapshot, hsome]
  exact Snapshot.get_load hstart hof (.inl (hall name hname))

end ScriptPool
