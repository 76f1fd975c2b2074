import ScriptPool.Proofs.Bag.Arguments

namespace ScriptPool

/-- Globals after names were assigned values from left to right. A name holds the last value that it
was assigned, and is unset if that is `nil`; no other name changes. -/
structure Globals.Assigned (names : List String) (value : Nat → Value) (g g' : Globals) : Prop where
  last : ∀ k name, names[k]? = some name → name ∉ names.drop (k + 1) →
    g'.get? name = if (value k).isNil then none else some (value k)
  others : ∀ name ∉ names, g'.get? name = g.get? name

theorem Globals.set_set (g : Globals) (name : String) (v u : Value) :
    (g.set name v).set name u = g.set name u := by
  have herase : (g.set name v).erase name = g.erase name := by
    unfold Globals.set
    split
    · simp [Globals.erase]
    · simp [Globals.erase]
  rw [Globals.set, herase, Globals.set]

theorem Globals.takeOut_set_eq (g : Globals) (name : String) (v : Value) :
    (g.set name v).takeOut name = (v, g.set name v.relinquished) := by
  rw [Globals.takeOut_eq, Globals.get_set_self]
  by_cases hhandles : v.containsHandles = true
  · rw [if_pos hhandles, Globals.set_set]
  · rw [if_neg hhandles, Value.relinquished_of_plain (Bool.eq_false_iff.mpr hhandles)]

theorem Globals.assigned_setAll (pairs : List (String × Value)) (g : Globals) :
    Globals.Assigned (pairs.map Prod.fst) (fun k => (pairs.map Prod.snd).getD k .nil) g
      (g.setAll pairs) := by
  induction pairs generalizing g with
  | nil => exact ⟨nofun, fun _ _ => rfl⟩
  | cons pair pairs ih =>
      obtain ⟨hlast, hothers⟩ := ih (g.set pair.1 pair.2)
      constructor
      · intro k name hk hlater
        cases k with
        | zero =>
            obtain rfl : pair.1 = name := by simpa using hk
            exact (hothers _ hlater).trans (Globals.get?_set_self g _ _)
        | succ k => exact hlast k name hk hlater
      · intro name hname
        rw [List.map_cons, List.mem_cons, not_or] at hname
        exact (hothers name hname.2).trans (Globals.get?_set_of_ne g _ hname.1)

theorem Globals.Assigned.congr {names : List String} {value value' : Nat → Value} {g g' : Globals}
    (h : Globals.Assigned names value g g') (heq : ∀ k < names.length, value k = value' k) :
    Globals.Assigned names value' g g' := by
  refine ⟨fun k name hk hlater => ?_, h.others⟩
  rw [← heq k (List.getElem?_eq_some_iff.mp hk).1]
  exact h.last k name hk hlater

theorem resultPairs_getD (names : List String) (results : List Value) (k : Nat)
    (hk : k < names.length) :
    ((resultPairs names results).map Prod.snd).getD k .nil = results.getD k .nil := by
  induction names generalizing results k with
  | nil => cases hk
  | cons name names ih =>
      cases k with
      | zero =>
          cases results with
          | nil | cons => rfl
      | succ k =>
          refine (ih results.tail k (Nat.lt_of_succ_lt_succ hk)).trans ?_
          cases results with
          | nil | cons => rfl

/-- Results that are set under the names of a return list are assigned from left to right; a name
without result is cleared. -/
theorem Globals.assigned_results (f : Value → Value) (hf : f .nil = .nil) (names : List String)
    (results : List Value) (g : Globals) :
    Globals.Assigned names (fun k => f (results.getD k .nil)) g
      (g.setAll ((resultPairs names results).map fun pair => (pair.1, f pair.2))) := by
  have h := Globals.assigned_setAll
    ((resultPairs names results).map fun pair => (pair.1, f pair.2)) g
  have hnames : ((resultPairs names results).map fun pair => (pair.1, f pair.2)).map Prod.fst =
      names := by
    rw [List.map_map]
    exact resultPairs_names names results
  rw [hnames] at h
  refine h.congr fun k hk => ?_
  rw [List.map_map, ← resultPairs_getD names results k hk]
  simp only [List.getD_eq_getElem?_getD, List.getElem?_map]
  cases (resultPairs names results)[k]? with
  | none => exact hf.symm
  | some pair => rfl

section WriteBack

variable {e : Engine} {c d main : ContextId}

theorem Engine.setGlobals_setGlobals (e : Engine) (c : ContextId) (g g' : Globals) :
    (e.setGlobals c g).setGlobals c g' = e.setGlobals c g' := by
  simp [Engine.setGlobals, List.modify_modify_eq, Function.comp_def]

theorem Engine.setGlobals_comm (h : c ≠ d) (e : Engine) (g g' : Globals) :
    (e.setGlobals c g).setGlobals d g' = (e.setGlobals d g').setGlobals c g := by
  simp [Engine.setGlobals, List.modify_modify_ne _ _ _ h]

theorem Engine.length_setGlobals (e : Engine) (c : ContextId) (g : Globals) :
    (e.setGlobals c g).contexts.length = e.contexts.length := by
  simp [Engine.setGlobals]

theorem Engine.setGlobals_self (e : Engine) (c : ContextId) : e.setGlobals c (e.globals c) = e := by
  have hcontexts : e.contexts.modify c (fun context => { context with globals := e.globals c }) =
      e.contexts := by
    apply List.ext_getElem?
    intro d
    rw [List.getElem?_modify]
    split
    · next heq =>
        subst heq
        unfold Engine.globals
        cases e.contexts[c]? with
        | none | some => rfl
    · exact id_map _
  rw [Engine.setGlobals, hcontexts]

/-- The engine after results were written under some names, relinquished in one context and as they
are in another. -/
def Engine.writeBack (c main : ContextId) (names : List String) (results : List Value) (e : Engine) :
    Engine :=
  (e.setGlobals c ((e.globals c).setAll
    ((resultPairs names results).map fun pair => (pair.1, pair.2.relinquished)))).setGlobals main
      ((e.globals main).setAll (resultPairs names results))

theorem writeResult_eq_set (hne : c ≠ main) (name : String) (value : Value) :
    writeResult c main name value e =
      (e.setGlobals c ((e.globals c).set name value.relinquished)).setGlobals main
        ((e.globals main).set name value) := by
  rw [writeResult_eq, Globals.takeOut_set_eq, Engine.set,
    Engine.globals_setGlobals_of_ne _ _ hne.symm]

theorem Engine.writeBack_nil (e : Engine) (c main : ContextId) (results : List Value) :
    e.writeBack c main [] results = e := by
  rw [Engine.writeBack, resultPairs, List.map_nil, Globals.setAll, Globals.setAll, List.foldl_nil,
    List.foldl_nil, Engine.setGlobals_self, Engine.setGlobals_self]

theorem Engine.writeBack_cons (hne : c ≠ main) (hc : c < e.contexts.length)
    (hmain : main < e.contexts.length) (name : String) (names : List String)
    (results : List Value) : e.writeBack c main (name :: names) results =
      (writeResult c main name (firstResult results) e).writeBack c main names results.tail := by
  have hmain' : ∀ g, main < (e.setGlobals c g).contexts.length := fun g =>
    (e.length_setGlobals c g).symm ▸ hmain
  rw [writeResult_eq_set hne, Engine.writeBack, Engine.writeBack,
    Engine.globals_setGlobals_self _ _ (hmain' _), Engine.globals_setGlobals_of_ne _ _ hne,
    Engine.globals_setGlobals_self _ _ hc, Engine.setGlobals_comm hne.symm,
    Engine.setGlobals_setGlobals, Engine.setGlobals_setGlobals]
  rfl

theorem Engine.globals_writeBack_main (hmain : main < e.contexts.length) (names : List String)
    (results : List Value) : (e.writeBack c main names results).globals main =
      (e.globals main).setAll (resultPairs names results) := by
  rw [Engine.writeBack, Engine.globals_setGlobals_self]
  rwa [Engine.length_setGlobals]

theorem Engine.globals_writeBack_own (hne : c ≠ main) (hc : c < e.contexts.length)
    (names : List String) (results : List Value) :
    (e.writeBack c main names results).globals c = (e.globals c).setAll
      ((resultPairs names results).map fun pair => (pair.1, pair.2.relinquished)) := by
  rw [Engine.writeBack, Engine.globals_setGlobals_of_ne _ _ hne,
    Engine.globals_setGlobals_self _ _ hc]

end WriteBack

end ScriptPool
