import ScriptPool.Engine.Execution

namespace ScriptPool

/-- The step did not leave the context, and at most it set the global that the code writes. -/
structure Execution.Keeps (x : Execution) (e : Engine) (x' : Execution) (e' : Engine) : Prop where
  context : x'.context = x.context
  registered : e'.registered = e.registered
  contexts : e'.contexts = e.contexts ∨
    ∃ name value next, x.code = .perform (.writeGlobal name value) next ∧
      e' = e.set x.context name value

variable {library : Library} {x x' : Execution} {e e' : Engine}

theorem Execution.step_keeps (h : x.step library e = .goesOn x' e') : x.Keeps e x' e' := by
  obtain ⟨c, function, code, frames, suspended⟩ := x
  cases code with
  | done results =>
      cases frames with
      | nil => cases h
      | cons =>
          cases h
          exact ⟨rfl, rfl, .inl rfl⟩
  | fail failure =>
      cases failure with
      | panic => cases h
      | script | message =>
          cases frames with
          | nil => cases h
          | cons =>
              cases h
              exact ⟨rfl, rfl, .inl rfl⟩
  | perform operation next =>
      cases operation with
      | writeGlobal name value =>
          cases h
          exact ⟨rfl, rfl, .inr ⟨name, value, next, rfl, rfl⟩⟩
      | call function' arguments =>
          simp only [Execution.step] at h
          split at h
          · cases h
            exact ⟨rfl, rfl, .inl rfl⟩
          · cases h
            exact ⟨rfl, rfl, .inl rfl⟩
      | passGate gate =>
          simp only [Execution.step] at h
          split at h
          · cases h
            exact ⟨rfl, rfl, .inl rfl⟩
          · cases h
      | readGlobal | globalNames | suspend | load | findRuntime | mintHandle | print | note
      | readCounter | writeCounter =>
          cases h
          exact ⟨rfl, rfl, .inl rfl⟩
      | request => cases h

end ScriptPool
