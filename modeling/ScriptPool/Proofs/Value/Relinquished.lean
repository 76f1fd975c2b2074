import ScriptPool.Proofs.Value.Plain

namespace ScriptPool

namespace Value

mutual

/-- The value with all handles in it tagged as moved. -/
def relinquished : Value → Value
  | .table entries => .table (relinquishedEntries entries)
  | .handle h => .handle h.relinquished
  | v => v

def relinquishedEntries : Table → Table
  | [] => []
  | (key, value) :: rest => (key.relinquished, value.relinquished) :: relinquishedEntries rest

end

mutual

theorem transfer_eq : ∀ v : Value, v.transfer = (v, v.relinquished)
  | .nil | .boolean _ | .number _ | .string _ | .lightRef _ | .handle _ => rfl
  | .table entries => by
      rw [transfer, transferEntries_eq entries [], List.nil_append, relinquished]

theorem transferEntries_eq : ∀ entries copy : Table,
    transferEntries copy entries = (copy ++ entries, relinquishedEntries entries)
  | [], copy => by rw [transferEntries, List.append_nil, relinquishedEntries]
  | (key, value) :: rest, copy => by
      simp only [transferEntries, transfer_eq key, transfer_eq value, transferEntries_eq rest,
        relinquishedEntries, Table.push, List.append_assoc, List.singleton_append]

end

variable {v : Value}

theorem transfer_fst (v : Value) : v.transfer.1 = v := by
  rw [transfer_eq]

theorem transfer_snd (v : Value) : v.transfer.2 = v.relinquished := by
  rw [transfer_eq]

theorem relinquished_of_plain (h : v.containsHandles = false) : v.relinquished = v := by
  rw [← transfer_snd, transfer_of_plain h]

theorem isNil_relinquished (v : Value) : v.relinquished.isNil = v.isNil := by
  cases v with
  | nil | boolean | number | string | lightRef | table | handle => simp [relinquished, isNil]

end Value

end ScriptPool
