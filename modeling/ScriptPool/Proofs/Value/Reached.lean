import ScriptPool.Proofs.Value.Owned
import ScriptPool.Proofs.Value.Relinquished

namespace ScriptPool

open ScriptPool.Number

namespace Value

/-- What can be reached from a value: the value itself, and whatever can be reached from a key or a
value of a table. -/
inductive Reaches : Value → Value → Prop where
  | refl (v : Value) : Reaches v v
  | key {entries : Table} {key value u : Value} (hentry : (key, value) ∈ entries)
      (h : Reaches key u) : Reaches (.table entries) u
  | value {entries : Table} {key value u : Value} (hentry : (key, value) ∈ entries)
      (h : Reaches value u) : Reaches (.table entries) u

variable {v u key value : Value} {entries : Table} {i : Identity}

theorem reaches_table_iff (hu : u.crossing ≠ .structured) :
    (table entries).Reaches u ↔ ∃ entry ∈ entries, entry.1.Reaches u ∨ entry.2.Reaches u := by
  constructor
  · intro h
    cases h with
    | refl => exact absurd rfl hu
    | key hentry h => exact ⟨_, hentry, .inl h⟩
    | value hentry h => exact ⟨_, hentry, .inr h⟩
  · rintro ⟨⟨key, value⟩, hentry, h | h⟩
    · exact .key hentry h
    · exact .value hentry h

theorem reaches_cons_iff (hu : u.crossing ≠ .structured) :
    (table ((key, value) :: entries)).Reaches u ↔
      key.Reaches u ∨ value.Reaches u ∨ (table entries).Reaches u := by
  simp only [reaches_table_iff hu, List.exists_mem_cons_iff, or_assoc]

theorem not_reaches_empty (hu : u.crossing ≠ .structured) : ¬ (table []).Reaches u := by
  simp [reaches_table_iff hu]

theorem reaches_handle_cons {h : Handle} : (table ((key, value) :: entries)).Reaches (.handle h) ↔
    key.Reaches (.handle h) ∨ value.Reaches (.handle h) ∨ (table entries).Reaches (.handle h) :=
  reaches_cons_iff nofun

mutual

theorem containsHandles_iff : ∀ v : Value, v.containsHandles = true ↔ ∃ h, v.Reaches (.handle h)
  | .handle h => iff_of_true rfl ⟨h, .refl _⟩
  | .table entries => entriesContainHandles_iff entries
  | .nil | .boolean _ | .number _ | .string _ | .lightRef _ =>
      iff_of_false nofun nofun

theorem entriesContainHandles_iff : ∀ entries : Table,
    entriesContainHandles entries = true ↔ ∃ h, (table entries).Reaches (.handle h)
  | [] => iff_of_false nofun fun ⟨_, h⟩ => not_reaches_empty (by rintro ⟨⟩) h
  | (key, value) :: rest => by
      simp only [entriesContainHandles, Bool.or_eq_true, containsHandles_iff key,
        containsHandles_iff value, entriesContainHandles_iff rest, reaches_handle_cons, exists_or,
        or_assoc]

end

mutual

/-- A value owns the handle with an identity exactly if an occurrence of it can be reached that is
tagged as owned. -/
theorem owns_pos_iff : ∀ v : Value, 0 < v.owns i ↔
    ∃ h, v.Reaches (.handle h) ∧ h.identity = i ∧ h.ownership = .owned
  | .handle h => by
      rw [owns]
      constructor
      · intro hpos
        split at hpos
        · next howned => exact ⟨h, .refl _, howned⟩
        · cases hpos
      · rintro ⟨h', hreach, howned⟩
        cases hreach
        rw [if_pos howned]
        exact Nat.one_pos
  | .table entries => entriesOwn_pos_iff entries
  | .nil | .boolean _ | .number _ | .string _ | .lightRef _ =>
      iff_of_false (Nat.lt_irrefl 0) nofun

theorem entriesOwn_pos_iff : ∀ entries : Table, 0 < entriesOwn i entries ↔
    ∃ h, (table entries).Reaches (.handle h) ∧ h.identity = i ∧ h.ownership = .owned
  | [] => iff_of_false (Nat.lt_irrefl 0) fun ⟨_, h, _⟩ => not_reaches_empty (by rintro ⟨⟩) h
  | (key, value) :: rest => by
      simp only [entriesOwn, Nat.add_pos_iff_pos_or_pos, owns_pos_iff key, owns_pos_iff value,
        entriesOwn_pos_iff rest, reaches_handle_cons, or_and_right, exists_or, or_assoc]

end

mutual

theorem relinquished_eq_iff : ∀ v : Value, v.relinquished = v ↔
    ∀ h, v.Reaches (.handle h) → h.ownership ≠ .owned
  | .handle h => by
      obtain ⟨identity, object, ownership⟩ := h
      constructor
      · rintro htag h' hreach howned
        cases hreach
        cases howned
        cases htag
      · intro hmoved
        have htag := hmoved _ (.refl _)
        cases ownership with
        | owned => exact absurd rfl htag
        | moved => rfl
  | .table entries => by
      rw [relinquished, table.injEq]
      exact relinquishedEntries_eq_iff entries
  | .nil | .boolean _ | .number _ | .string _ | .lightRef _ =>
      iff_of_true rfl nofun

theorem relinquishedEntries_eq_iff : ∀ entries : Table, relinquishedEntries entries = entries ↔
    ∀ h, (table entries).Reaches (.handle h) → h.ownership ≠ .owned
  | [] => iff_of_true rfl fun _ h => absurd h (not_reaches_empty nofun)
  | (key, value) :: rest => by
      simp only [relinquishedEntries, List.cons.injEq, Prod.mk.injEq, relinquished_eq_iff key,
        relinquished_eq_iff value, relinquishedEntries_eq_iff rest, reaches_handle_cons,
        or_imp, forall_and, and_assoc]

end

theorem isMoved_of_reaches_relinquished {h : Handle} (hreach : v.relinquished.Reaches (.handle h)) :
    h.isMoved = true := by
  have hnone : v.relinquished.owns h.identity = 0 := by
    rw [← transfer_snd]
    exact (owns_transfer v).2
  cases htag : h.ownership with
  | moved => simp [Handle.isMoved, htag]
  | owned =>
      have hpos := (owns_pos_iff v.relinquished).mpr ⟨h, hreach, rfl, htag⟩
      omega

mutual

/-- Tags do not matter to equality, and a value equals itself unless there is a not-a-number in
it. -/
theorem equal_relinquished_iff : ∀ v : Value, v.equal v.relinquished = true ↔
    ¬ v.Reaches (.number .nan)
  | .number n => by
      show (number n).equal (number n) = true ↔ _
      rw [equal, Double.equal_self_iff]
      refine not_congr ⟨fun h => h ▸ .refl _, fun h => ?_⟩
      cases h
      rfl
  | .table entries => by
      rw [relinquished, equal]
      exact equalEntries_relinquished_iff entries
  | .handle h => by
      refine iff_of_true ?_ fun hreach => nomatch hreach
      rw [relinquished, equal, Handle.relinquished_identity]
      exact decide_eq_true rfl
  | .nil | .boolean _ | .string _ | .lightRef _ => by
      refine iff_of_true ?_ fun hreach => nomatch hreach
      simp [relinquished, equal]

theorem equalEntries_relinquished_iff : ∀ entries : Table,
    equalEntries entries (relinquishedEntries entries) = true ↔
      ¬ (table entries).Reaches (.number .nan)
  | [] => iff_of_true rfl (not_reaches_empty nofun)
  | (key, value) :: rest => by
      simp only [relinquishedEntries, equalEntries, Bool.and_eq_true, equal_relinquished_iff key,
        equal_relinquished_iff value, equalEntries_relinquished_iff rest,
        reaches_cons_iff (u := .number .nan) nofun, not_or, and_assoc]

end

/-- What a transfer of a value hands over and what it leaves. -/
structure MovesHandles (v copy left : Value) : Prop where
  /-- The copy is the value as it was, with the tags that the handles had. -/
  copy_eq : copy = v
  /-- What is left is the value with all handles tagged as moved. -/
  left_eq : left = v.relinquished
  /-- Each occurrence that was owned is owned in one of the two places. -/
  owns (i : Identity) : copy.owns i + left.owns i = v.owns i
  untouched_iff : left = v ↔ ∀ h, v.Reaches (.handle h) → h.ownership ≠ .owned
  untouched_of_plain : v.containsHandles = false → left = v
  /-- Before and after, in both places, handles are found exactly if one could be reached. -/
  containsHandles_iff : ∀ w ∈ [v, copy, left],
    w.containsHandles = true ↔ ∃ h, v.Reaches (.handle h)
  /-- Another transfer passes on references only. -/
  again (h : Handle) : left.transfer.1.Reaches (.handle h) → h.isMoved = true
  equal_iff : copy.equal left = true ↔ ¬ v.Reaches (.number .nan)

/-- A transfer moves handles and copies everything else, at any depth. -/
theorem transfer_moves_handles (v : Value) : MovesHandles v v.transfer.1 v.transfer.2 where
  copy_eq := transfer_fst v
  left_eq := transfer_snd v
  owns i := by rw [(owns_transfer v).1, (owns_transfer v).2, Nat.add_zero]
  untouched_iff := by rw [transfer_snd, relinquished_eq_iff]
  untouched_of_plain h := by rw [transfer_of_plain h]
  containsHandles_iff := by
    intro w hw
    have hsame : w.containsHandles = v.containsHandles := by
      simp only [List.mem_cons, List.not_mem_nil, or_false] at hw
      rcases hw with rfl | rfl | rfl
      · rfl
      · rw [transfer_fst]
      · exact containsHandles_transfer v
    rw [hsame, Value.containsHandles_iff]
  again h := by
    rw [transfer_fst, transfer_snd]
    exact isMoved_of_reaches_relinquished
  equal_iff := by rw [transfer_fst, transfer_snd, equal_relinquished_iff]

end Value

end ScriptPool
