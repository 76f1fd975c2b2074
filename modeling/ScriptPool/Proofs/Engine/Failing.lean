import ScriptPool.Engine.Execution

namespace ScriptPool

variable {α β : Type} {Q : Failure → Prop} {library : Library}

/-- The failure is an error of the script engine with a property. -/
def Failure.Scripted (R : ScriptError → Prop) (failure : Failure) : Prop :=
  ∃ e, failure = .script e ∧ R e

namespace Program

/-- All failures that a program can come to have a property. -/
def FailsWith (Q : Failure → Prop) : Program α → Prop
  | .done _ => True
  | .fail failure => Q failure
  | .perform _ next => ∀ answer, (next answer).FailsWith Q

theorem failsWith_ask {operation : Operation} {f : operation.Answer → Program α}
    (h : ∀ answer, (f answer).FailsWith Q) : (Program.ask operation >>= f).FailsWith Q :=
  h

theorem FailsWith.bind {p : Program α} {f : α → Program β} (hp : p.FailsWith Q)
    (hf : ∀ a, (f a).FailsWith Q) : (p.bind f).FailsWith Q := by
  induction p with
  | done a => exact hf a
  | fail failure => exact hp
  | perform operation next ih => exact fun answer => ih answer (hp answer)

theorem FailsWith.mapError {p : Program α} {f : ScriptError → ScriptError} {R : ScriptError → Prop}
    (hp : p.FailsWith (Failure.Scripted fun _ => True)) (hf : ∀ e, R (f e)) :
    (p.mapError f).FailsWith (Failure.Scripted R) := by
  induction p with
  | done a => trivial
  | fail failure =>
      obtain ⟨e, rfl, -⟩ := hp
      exact ⟨f e, rfl, hf e⟩
  | perform operation next ih => exact fun answer => ih answer (hp answer)

theorem failsWith_throw {e : ScriptError} {R : ScriptError → Prop} (h : R e) :
    (Program.throw e : Program α).FailsWith (Failure.Scripted R) :=
  ⟨e, rfl, h⟩

end Program

/-- Whatever a waiting caller is answered, it fails with the property at most. -/
def Frame.FailsWith (Q : Failure → Prop) (frame : Frame) : Prop :=
  (∀ results, (frame.resume results).FailsWith Q) ∧
    ∀ failure, (frame.recover failure).FailsWith Q

namespace Execution

/-- The outermost code in progress, which no caller waits for, fails with the property at most. -/
def FailsWith (Q : Failure → Prop) (x : Execution) : Prop :=
  match x.frames.getLast? with
  | none => x.code.FailsWith Q
  | some frame => frame.FailsWith Q

variable {x x' : Execution} {e e' : Engine}

theorem FailsWith.of_same (h : x.FailsWith Q) (hframes : x'.frames = x.frames)
    (hcode : x.frames = [] → x'.code.FailsWith Q) : x'.FailsWith Q := by
  unfold FailsWith at h ⊢
  rw [hframes]
  cases hx : x.frames with
  | nil => exact hcode hx
  | cons frame rest =>
      rw [hx] at h
      exact h

theorem FailsWith.push {frame : Frame} (h : x.FailsWith Q) (hframes : x'.frames = frame :: x.frames)
    (hframe : x.frames = [] → frame.FailsWith Q) : x'.FailsWith Q := by
  unfold FailsWith at h ⊢
  rw [hframes]
  cases hx : x.frames with
  | nil => exact hframe hx
  | cons frame' rest =>
      rw [hx] at h
      exact h

theorem FailsWith.pop {frame : Frame} {rest : List Frame} (h : x.FailsWith Q)
    (hframes : x.frames = frame :: rest) (hrest : x'.frames = rest)
    (hcode : frame.FailsWith Q → x'.code.FailsWith Q) : x'.FailsWith Q := by
  unfold FailsWith at h ⊢
  rw [hframes] at h
  rw [hrest]
  cases rest with
  | nil => exact hcode h
  | cons frame' rest => exact h

theorem FailsWith.code (h : x.FailsWith Q) (hframes : x.frames = []) : x.code.FailsWith Q := by
  unfold FailsWith at h
  rw [hframes] at h
  exact h

theorem FailsWith.step (h : x.FailsWith Q) (hs : x.step library e = .goesOn x' e') :
    x'.FailsWith Q := by
  obtain ⟨context, function, code, frames, suspended⟩ := x
  -- Only a call, a load and their ends change the frames; what is innermost does not matter.
  cases code with
  | done results =>
      cases frames with
      | nil => cases hs
      | cons frame rest =>
          cases hs
          exact h.pop rfl rfl fun hframe => hframe.1 results
  | fail failure =>
      cases frames with
      | nil =>
          cases failure with
          | script | message | panic => cases hs
      | cons frame rest =>
          cases failure with
          | script | message =>
              cases hs
              exact h.pop rfl rfl fun hframe => hframe.2 _
          | panic => cases hs
  | perform operation next =>
      cases operation with
      | call name arguments =>
          simp only [Execution.step] at hs
          split at hs
          · cases hs
            refine h.push rfl fun hframes => ?_
            have hnext := h.code hframes
            exact ⟨fun results => hnext (.ok results), fun failure => hnext (.error _)⟩
          · cases hs
            exact h.of_same rfl fun hframes => h.code hframes _
      | load chunk source =>
          cases hs
          refine h.push rfl fun hframes => ?_
          have hnext := h.code hframes
          exact ⟨fun _ => hnext (.ok ()), fun failure => hnext (.error _)⟩
      | passGate gate =>
          simp only [Execution.step] at hs
          split at hs
          · cases hs
            exact h.of_same rfl fun hframes => h.code hframes _
          · cases hs
      | readGlobal | writeGlobal | globalNames | suspend | findRuntime | mintHandle | print
      | note | readCounter | writeCounter =>
          cases hs
          exact h.of_same rfl fun hframes => h.code hframes _
      | request => cases hs

theorem FailsWith.answer (h : x.FailsWith Q) (reply : Reply) : (x.answer reply).FailsWith Q := by
  obtain ⟨context, function, code, frames, suspended⟩ := x
  unfold Execution.answer
  split
  · next next heq =>
      refine h.of_same rfl fun hframes => ?_
      have hcode := h.code hframes
      rw [heq] at hcode
      exact hcode reply
  · exact h

theorem FailsWith.ends {err : ScriptError} (h : x.FailsWith Q)
    (hs : x.step library e = .ends (.returned (.errored err))) :
    ∃ failure, Q failure ∧ err = failure.asError x.function := by
  obtain ⟨context, function, code, frames, suspended⟩ := x
  cases code with
  | done results =>
      cases frames with
      | nil =>
          simp only [Execution.step, Execution.leave] at hs
          split at hs
          · cases hs
          · cases hs
      | cons frame rest => cases hs
  | fail failure =>
      cases frames with
      | nil =>
          have hfailure : Q failure := h.code rfl
          cases failure with
          | script | message =>
              cases hs
              exact ⟨_, hfailure, rfl⟩
          | panic => cases hs
      | cons frame rest =>
          cases failure with
          | script | message | panic => cases hs
  | perform operation next =>
      cases operation with
      | call name arguments =>
          simp only [Execution.step] at hs
          split at hs
          · cases hs
          · cases hs
      | passGate gate =>
          simp only [Execution.step] at hs
          split at hs
          · cases hs
          · cases hs
      | _ => cases hs

end Execution

end ScriptPool
