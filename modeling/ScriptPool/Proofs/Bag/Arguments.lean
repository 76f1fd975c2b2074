import ScriptPool.Proofs.Pool.MainBlock
import ScriptPool.Proofs.Value.Relinquished

namespace ScriptPool

/-- The arguments of a call, given the values of the globals that it names. -/
def Call.argumentsBy (call : Call) (valueOf : String → Value) : List Value :=
  call.arguments.map fun
    | .global name => valueOf name
    | .literal value => value

variable {call : Call} {captured : Snapshot} {g own : Globals} {name : String} {names : List String}
  {valueOf valueOf' : String → Value}

theorem Call.argumentsBy_congr (h : ∀ name ∈ call.parameters, valueOf name = valueOf' name) :
    call.argumentsBy valueOf = call.argumentsBy valueOf' := by
  apply List.map_congr_left
  intro a ha
  cases a with
  | global name => exact h name (List.mem_filterMap.mpr ⟨_, ha, rfl⟩)
  | literal value => rfl

theorem Task.argumentValues_eq_argumentsBy (task : Task) (g : Globals) :
    task.argumentValues g = task.call.argumentsBy g.get :=
  rfl

theorem captureGlobal_eq (value? : Option Value) :
    captureGlobal value? = (value?.getD .nil, if (value?.getD .nil).containsHandles then
      some (value?.getD .nil).relinquished else none) := by
  cases value? with
  | none => rfl
  | some value =>
      simp only [captureGlobal, Value.transfer_eq, Option.getD_some]
      rw [← Value.transfer_snd, Value.containsHandles_transfer]

theorem Globals.takeOut_eq (g : Globals) (name : String) :
    g.takeOut name = (g.get name, if (g.get name).containsHandles then
      g.set name (g.get name).relinquished else g) := by
  rw [Globals.takeOut_eq_capture, captureGlobal_eq]
  unfold Globals.get
  split
  · rfl
  · rfl

theorem Globals.putIn_eq (g : Globals) (name : String) (value : Value) :
    g.putIn name value = g.set name value := by
  rw [Globals.putIn, Value.transfer_fst]

theorem Globals.get?_takeOut (g : Globals) (name other : String) :
    (g.takeOut name).2.get? other =
      if other = name then (g.get? name).map Value.relinquished else g.get? other := by
  rw [Globals.takeOut_eq]
  dsimp only
  by_cases hhandles : (g.get name).containsHandles = true
  · rw [if_pos hhandles]
    by_cases hname : other = name
    · subst hname
      obtain ⟨value, hvalue⟩ : ∃ value, g.get? other = some value := by
        cases hvalue : g.get? other with
        | none =>
            rw [Globals.get, hvalue] at hhandles
            cases hhandles
        | some value => exact ⟨value, rfl⟩
      have hnil : value.isNil = false := by
        rw [Globals.get, hvalue] at hhandles
        cases value with
        | nil => cases hhandles
        | _ => rfl
      simp [Globals.get?_set_self, Globals.get, hvalue, Value.isNil_relinquished, hnil]
    · rw [Globals.get?_set_of_ne _ _ hname, if_neg hname]
  · rw [if_neg hhandles]
    split
    · next hname =>
        subst hname
        cases hvalue : g.get? other with
        | none => rfl
        | some value =>
            have hplain : value.containsHandles = false := by
              simpa [Globals.get, hvalue] using hhandles
            rw [Option.map_some, Value.relinquished_of_plain hplain]
    · rfl

theorem Snapshot.get_load_of_nodup (h : (captured.map Prod.fst).Nodup) :
    (captured.foldl (fun g entry => g.putIn entry.1 entry.2) g).get name =
      (captured.get? name).getD (g.get name) := by
  induction captured generalizing g with
  | nil => rfl
  | cons entry captured ih =>
      rw [List.map_cons, List.nodup_cons] at h
      rw [List.foldl_cons, ih h.2, Globals.putIn_eq, Snapshot.get?, Snapshot.get?, List.lookup_cons]
      by_cases hname : name = entry.1
      · have hlater : captured.lookup name = none := by
          rw [← Snapshot.get?, ← Option.not_isSome_iff_eq_none, Snapshot.isSome_get?_iff, hname]
          exact h.1
        simp [hname ▸ hlater, hname, Globals.get_set_self]
      · rw [beq_false_of_ne hname, Globals.get_set_of_ne _ hname]

theorem Task.snapshot?_ofCaptured (hname : name ∈ call.parameters) :
    (Task.ofCaptured call captured).snapshot? = some captured := by
  have hne : call.parameters ≠ [] := List.ne_nil_of_mem hname
  simp [Task.ofCaptured, hne]

theorem Task.argumentValues_ofCaptured (hnodup : (captured.map Prod.fst).Nodup)
    (hall : ∀ name ∈ call.parameters, captured.get? name = some (valueOf name)) (own : Globals) :
    (Task.ofCaptured call captured).argumentValues
      ((Task.ofCaptured call captured).loadSnapshot own) = call.argumentsBy valueOf := by
  rw [Task.argumentValues_eq_argumentsBy]
  apply Call.argumentsBy_congr
  intro name (hname : name ∈ call.parameters)
  rw [Task.loadSnapshot, Task.snapshot?_ofCaptured hname, Option.getD_some,
    Snapshot.get_load_of_nodup hnodup, hall name hname, Option.getD_some]

theorem Snapshot.nodup_append {value : Value} (h : (captured.map Prod.fst).Nodup)
    (hname : ¬ (captured.get? name).isSome = true) :
    ((captured ++ [(name, value)]).map Prod.fst).Nodup := by
  rw [Snapshot.isSome_get?_iff] at hname
  rw [List.map_append, List.map_singleton, ← List.concat_eq_append]
  exact h.concat hname

theorem Snapshot.nodup_capture (h : (captured.map Prod.fst).Nodup) (names : List String)
    (g : Globals) : ((Snapshot.capture captured names g).1.map Prod.fst).Nodup := by
  induction names generalizing captured g with
  | nil => exact h
  | cons name names ih =>
      unfold Snapshot.capture
      split
      · exact ih h g
      · next hmissing => exact ih (Snapshot.nodup_append h hmissing) _

theorem Snapshot.get?_append (captured : Snapshot) (name other : String) (value : Value) :
    Snapshot.get? (captured ++ [(name, value)]) other =
      (captured.get? other).or (if other = name then some value else none) := by
  rw [Snapshot.get?, List.lookup_append, List.lookup_cons]
  by_cases hname : other = name
  · simp [hname, Snapshot.get?]
  · simp [hname, beq_false_of_ne hname, Snapshot.get?]

theorem Snapshot.get?_left (captured : Snapshot) (names : List String) (g : Globals)
    (name : String) : (Snapshot.capture captured names g).2.get? name =
      if name ∈ names ∧ captured.get? name = none then (g.get? name).map Value.relinquished
      else g.get? name := by
  induction names generalizing captured g with
  | nil => simp [Snapshot.capture]
  | cons other names ih =>
      unfold Snapshot.capture
      split
      · next hfound =>
          have hne (hmissing : captured.get? name = none) : name ≠ other := by
            rintro rfl
            rw [hmissing] at hfound
            cases hfound
          rw [ih]
          by_cases hmissing : captured.get? name = none
          · simp [hmissing, hne]
          · simp [hmissing]
      · next hmissing =>
          rw [Option.not_isSome_iff_eq_none] at hmissing
          dsimp only
          rw [ih, Globals.get?_takeOut, Snapshot.get?_append]
          by_cases hname : name = other
          · subst hname
            simp [hmissing]
          · simp [hname]

/-- These pairs are handles that stay: values of globals among the names, with their handles tagged. -/
def Globals.Tags (g : Globals) (names : List String) (pairs : List (String × Value)) : Prop :=
  ∀ pair ∈ pairs, pair.1 ∈ names ∧ (g.get pair.1).containsHandles = true ∧
    pair.2 = (g.get pair.1).relinquished

theorem Snapshot.left_eq_setAll (captured : Snapshot) (names : List String) (g : Globals) :
    ∃ pairs, (Snapshot.capture captured names g).2 = g.setAll pairs ∧ g.Tags names pairs ∧
      ∀ pair ∈ pairs, captured.get? pair.1 = none := by
  induction names generalizing captured g with
  | nil => exact ⟨[], rfl, List.forall_mem_nil _, List.forall_mem_nil _⟩
  | cons name names ih =>
      have hlater {g : Globals} {pairs : List (String × Value)} (h : g.Tags names pairs) :
          g.Tags (name :: names) pairs :=
        fun pair hpair => ⟨List.mem_cons_of_mem _ (h pair hpair).1, (h pair hpair).2⟩
      unfold Snapshot.capture
      split
      · obtain ⟨pairs, hleft, htags, hmissing⟩ := ih captured g
        exact ⟨pairs, hleft, hlater htags, hmissing⟩
      · next hfresh =>
          rw [Option.not_isSome_iff_eq_none] at hfresh
          rw [Globals.takeOut_eq]
          dsimp only
          obtain ⟨pairs, hleft, htags, hmissing⟩ := ih (captured ++ [(name, g.get name)])
            (if (g.get name).containsHandles then g.set name (g.get name).relinquished else g)
          have hother : ∀ pair ∈ pairs, pair.1 ≠ name ∧ captured.get? pair.1 = none := by
            intro pair hpair
            have hnone := hmissing pair hpair
            rw [Snapshot.get?_append, Option.or_eq_none_iff] at hnone
            refine ⟨fun heq => ?_, hnone.1⟩
            rw [if_pos heq] at hnone
            cases hnone.2
          by_cases hhandles : (g.get name).containsHandles = true
          · rw [if_pos hhandles] at hleft htags
            refine ⟨(name, (g.get name).relinquished) :: pairs, ?_, ?_, ?_⟩
            · rw [if_pos hhandles, hleft]
              rfl
            · rw [Globals.Tags, List.forall_mem_cons]
              refine ⟨⟨List.mem_cons_self, hhandles, rfl⟩, fun pair hpair => ?_⟩
              have hpair' := hlater htags pair hpair
              rwa [Globals.get_set_of_ne _ (hother pair hpair).1] at hpair'
            · exact List.forall_mem_cons.mpr ⟨hfresh, fun pair hpair => (hother pair hpair).2⟩
          · rw [if_neg hhandles] at hleft htags
            rw [if_neg hhandles]
            exact ⟨pairs, hleft, hlater htags, fun pair hpair => (hother pair hpair).2⟩

theorem Task.capture_eq (call : Call) (g : Globals) : Task.capture call g =
    (Task.ofCaptured call (Snapshot.capture [] call.parameters g).1,
      (Snapshot.capture [] call.parameters g).2) := by
  unfold Task.capture Task.ofCaptured
  cases hparameters : call.parameters with
  | nil => simp [Snapshot.capture]
  | cons name names => simp

/-- A captured call gets the values that its globals had, and the literals of its text, whatever the
executing context has under the same names. -/
theorem Task.arguments_capture (call : Call) (g own : Globals) :
    (Task.capture call g).1.argumentValues ((Task.capture call g).1.loadSnapshot own) =
      call.argumentsBy g.get := by
  rw [Task.capture_eq]
  have hnone : (([] : Snapshot).map Prod.fst).Nodup := List.nodup_nil
  apply Task.argumentValues_ofCaptured (Snapshot.nodup_capture hnone _ _)
  intro name hname
  rw [Snapshot.get?_capture, if_pos hname, Value.transfer_fst]
  rfl

theorem Task.get?_left (call : Call) (g : Globals) (name : String) :
    (Task.capture call g).2.get? name =
      if name ∈ call.parameters then (g.get? name).map Value.relinquished else g.get? name := by
  rw [Task.capture_eq, Snapshot.get?_left]
  simp [Snapshot.get?]

theorem Task.left_eq_setAll (call : Call) (g : Globals) :
    ∃ pairs, (Task.capture call g).2 = g.setAll pairs ∧ g.Tags call.parameters pairs := by
  rw [Task.capture_eq]
  obtain ⟨pairs, hleft, htags, -⟩ := Snapshot.left_eq_setAll [] call.parameters g
  exact ⟨pairs, hleft, htags⟩

end ScriptPool
