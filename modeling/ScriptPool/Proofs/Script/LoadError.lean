import ScriptPool.Proofs.Engine.Failing

namespace ScriptPool

open ScriptPool.Text

/-- The program fails with errors of the script engine at most. -/
abbrev Program.FailsScripted {α : Type} (p : Program α) : Prop :=
  p.FailsWith (Failure.Scripted fun _ => True)

theorem Program.failsScripted_ofExcept {α : Type} (r : Except ScriptError α) :
    (Program.ofExcept r).FailsScripted := by
  cases r with
  | ok a => trivial
  | error e => exact ⟨e, rfl, trivial⟩

theorem callMethod_scripted (receiver method : String) (arguments : List Value) :
    (callMethod receiver method arguments).FailsScripted := by
  have hrequest (r : Request) : (callMethod.request r).FailsScripted := by
    intro reply
    cases reply with
    | ok n => trivial
    | error e => exact ⟨_, rfl, trivial⟩
  have htext (qualified : String) (v : Value) (next : String → Request) :
      (callMethod.withText qualified v fun text => callMethod.request (next text)).FailsScripted := by
    unfold callMethod.withText
    split
    · exact hrequest _
    · exact ⟨_, rfl, trivial⟩
  unfold callMethod
  refine Program.failsWith_ask fun target => ?_
  dsimp only
  split
  · exact Program.failsWith_throw trivial
  · refine Program.failsWith_ask fun available => ?_
    split
    · exact Program.failsWith_throw trivial
    · split
      · exact htext _ _ .parallel
      · exact htext _ _ .join
      · exact hrequest _
      · exact hrequest _
      · exact hrequest _
      · split
        · refine Program.failsWith_ask fun reply => ?_
          cases reply with
          | ok size => trivial
          | error e => exact Program.failsWith_throw trivial
        · exact Program.failsWith_throw trivial
      · exact Program.failsWith_throw trivial

mutual

theorem Expr.program_scripted : (expr : Expr) → expr.program.FailsScripted
  | .literal value => by
    rw [Expr.program]
    trivial
  | .global name => by
    rw [Expr.program]
    exact fun _ => trivial
  | .call function arguments => by
    rw [Expr.program]
    exact (Expr.listProgram_scripted arguments).bind fun values answer =>
      Program.failsScripted_ofExcept answer
  | .method receiver name arguments => by
    rw [Expr.program]
    exact (Expr.listProgram_scripted arguments).bind fun values => callMethod_scripted _ _ _

theorem Expr.listProgram_scripted : (exprs : List Expr) → (Expr.listProgram exprs).FailsScripted
  | [] => by
    rw [Expr.listProgram]
    trivial
  | [last] => by
    rw [Expr.listProgram]
    exact Expr.program_scripted last
  | expr :: expr' :: rest => by
    rw [Expr.listProgram]
    · exact (Expr.program_scripted expr).bind fun results =>
        (Expr.listProgram_scripted (expr' :: rest)).bind fun values => trivial
    · simp

end

theorem Statement.store_scripted (targets : List String) (values : List Value) :
    (Statement.store targets values).FailsScripted := by
  induction targets generalizing values with
  | nil => trivial
  | cons target targets ih => exact fun _ => ih _

theorem Statement.program_scripted (statement : Statement) : statement.program.FailsScripted := by
  cases statement with
  | assign targets values =>
      exact (Expr.listProgram_scripted values).bind fun results =>
        Statement.store_scripted targets results
  | call expr => exact (Expr.program_scripted expr).bind fun _ => trivial

namespace Chunk

/-- The error is one of the chunk, at one of the first lines. -/
def FailsAt (name : String) (count : Nat) (e : ScriptError) : Prop :=
  ∃ line message, e = .load name line message ∧ 1 ≤ line ∧ line ≤ count

theorem runLines_failsWith {name : String} {count : Nat} {lines : List (Nat × Statement)}
    (h : ∀ line ∈ lines, 1 ≤ line.1 ∧ line.1 ≤ count) :
    (Chunk.runLines name lines).FailsWith (Failure.Scripted (FailsAt name count)) := by
  induction lines with
  | nil => trivial
  | cons line lines ih =>
      obtain ⟨number, statement⟩ := line
      rw [List.forall_mem_cons] at h
      have hline : (statement.program.mapError fun e => .load name number e.message).FailsWith
          (Failure.Scripted (FailsAt name count)) :=
        statement.program_scripted.mapError fun e => ⟨number, e.message, rfl, h.1⟩
      exact hline.bind fun _ => ih h.2

theorem readLines_range (name : String) (number : Nat) (lines : List (List Char)) :
    match Chunk.readLines name number lines with
    | .ok found => ∀ line ∈ found, number ≤ line.1 ∧ line.1 < number + lines.length
    | .error e => ∃ line message, e = .load name line message ∧ number ≤ line ∧
        line < number + lines.length := by
  induction lines generalizing number with
  | nil => exact List.forall_mem_nil _
  | cons line lines ih =>
      specialize @ih (number + 1)
      rw [Chunk.readLines, List.length_cons]
      cases Statement.ofLine? line with
      | error fault => exact ⟨number, fault.message, rfl, by omega⟩
      | ok found =>
          cases hrest : Chunk.readLines name (number + 1) lines with
          | error e =>
              rw [hrest] at ih
              obtain ⟨line, message, rfl, hline⟩ := ih
              exact ⟨line, message, rfl, by omega⟩
          | ok more =>
              rw [hrest] at ih
              have hmore : ∀ line ∈ more, number ≤ line.1 ∧ line.1 < number + (lines.length + 1) :=
                fun line hmem => by have := ih line hmem; omega
              cases found with
              | none => exact hmore
              | some statement => exact List.forall_mem_cons.mpr ⟨by dsimp only; omega, hmore⟩

theorem loadCode_failsWith (name source : String) :
    (Execution.loadCode name source).FailsWith
      (Failure.Scripted (FailsAt name (Text.lines source.toList).length)) := by
  have hrange := readLines_range name 1 (Text.lines source.toList)
  rw [Execution.loadCode, Chunk.parse]
  cases hread : Chunk.readLines name 1 (Text.lines source.toList) with
  | error e =>
      rw [hread] at hrange
      obtain ⟨line, message, rfl, hline⟩ := hrange
      exact Program.failsWith_throw ⟨line, message, rfl, by omega⟩
  | ok lines =>
      rw [hread] at hrange
      have hlines : ∀ line ∈ lines, 1 ≤ line.1 ∧ line.1 ≤ (Text.lines source.toList).length :=
        fun line hmem => by have := hrange line hmem; omega
      exact (runLines_failsWith hlines).bind fun _ => trivial

end Chunk

end ScriptPool
