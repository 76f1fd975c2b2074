import ScriptPool.Proofs.Directive.FunctionName
import ScriptPool.Proofs.Pool.Rejection
import ScriptPool.Proofs.Value.Count

namespace ScriptPool

open ScriptPool.Number ScriptPool.Number.Numeral ScriptPool.Text ScriptPool.Token

variable {s : ScriptSettings} {line argument : String} {number k : Nat} {n : Double} {v : Value}

theorem Directive.workerCount_eq_ok_iff {d : Directive} : d.workerCount = .ok k ↔
    ∃ n, tokens d.argument = .ok [.number n] ∧ (Value.number n).Counts k := by
  constructor
  · intro h
    obtain ⟨n, hargument, hcount⟩ := workerCount_tokens h
    exact ⟨n, hargument, Value.counts_number_iff.mpr hcount⟩
  · rintro ⟨n, hargument, hcount⟩
    have hliteral : (Token.number n).literal?.bind Value.asCount? = some k :=
      Value.asCount?_eq_some_iff.mpr hcount
    rw [workerCount, argumentToken_eq_ok_iff.mpr hargument]
    simp only [hliteral]

/-- What is written for a directive about the number of workers: it is accepted exactly if its argument
is a number that counts. -/
theorem ScriptSettings.instrumentLine_np_iff (h : s.Directs line "NP" argument)
    {output : OutputLine} {asked? : Option Nat} :
    s.instrumentLine none number line = .ok (output, asked?) ↔
      ∃ n k, tokens argument = .ok [.number n] ∧ (Value.number n).Counts k ∧
        output = ⟨s.methodCall (indentOf line.toList) "np" (toString k), .directive "NP"⟩ ∧
        asked? = none := by
  let d : Directive := ⟨indentOf line.toList, "NP", argument⟩
  have hline : Directive.ofLine? s.marker.toList line.toList = some d := directs_iff.mp h
  have hcommand : d.command = d.workerCount.map fun count => .method "np" (toString count) := rfl
  have hread : s.instrumentLine none number line = .ok (output, asked?) ↔
      ∃ k, d.workerCount = .ok k ∧
        output = ⟨s.methodCall (indentOf line.toList) "np" (toString k), .directive "NP"⟩ ∧
        asked? = none := by
    unfold instrumentLine
    rw [hline]
    dsimp only
    rw [hcommand]
    cases d.workerCount with
    | error fault => simp [Except.map]
    | ok count => simp [Except.map, d, eq_comm]
  rw [hread]
  simp only [Directive.workerCount_eq_ok_iff]
  constructor
  · rintro ⟨k, ⟨n, hargument, hcounts⟩, hrest⟩
    exact ⟨n, k, hargument, hcounts, hrest⟩
  · rintro ⟨n, k, hargument, hcounts, hrest⟩
    exact ⟨k, ⟨n, hargument, hcounts⟩, hrest⟩

theorem Value.Counts.writes (h : v.Counts k) :
    ∃ m, Writes (toString k) m ∧ m.count? = some k := by
  cases h with
  | exact hvalue hle => exact count?_writes (Double.count?_eq_some_iff.mpr (.inl ⟨hvalue, hle⟩))
  | clipped hvalue => exact count?_writes (Double.count?_eq_some_iff.mpr (.inr ⟨hvalue, rfl⟩))

theorem Value.Counts.tokens (h : v.Counts k) :
    ∃ m, tokens (toString k) = .ok [.number m] ∧ (Value.number m).Counts k := by
  obtain ⟨m, hwrites, hcount⟩ := h.writes
  have hread := spells_number hwrites stops_nil
  rw [List.append_nil] at hread
  exact ⟨m, hread.ok (fun column => by rw [readAll]) 1, counts_number_iff.mpr hcount⟩

theorem Value.Counts.performs (h : v.Counts k) (hreceiver : isName s.receiver = true)
    (hlocal : s.receiver ≠ "local") (line : String) :
    Performs s.receiver (s.methodCall (indentOf line.toList) "np" (toString k)) (.resize k) := by
  obtain ⟨m, hwrites, hcount⟩ := h.writes
  rw [ScriptSettings.methodCall_eq]
  exact performs_of_line hreceiver (by decide) (writes_single hwrites)
    ScriptSettings.isBlank_of_mem_indentOf hlocal (writesArguments_number hwrites) (.resize hcount)

theorem Value.Counts.isTruthy (h : v.Counts k) : v.isTruthy = true := by
  cases h with
  | exact | clipped => rfl

section Script

variable {e : Engine} {c : ContextId} {receiver : String} {arguments : List Value}
  (hcoordinator : (e.target c receiver).isCoordinator = true)
  (hsome : (e.runtime? c).isSome = true)
include hcoordinator hsome

theorem callMethod_np (hcount : (if (firstResult arguments).isTruthy then
    (firstResult arguments).asCount? else some 0) = some k) :
    ∃ next, LooksUpTo e c (callMethod receiver "np" arguments)
      (.perform (.request (.resize k)) next) := by
  have hcode : ∃ next, methodCode receiver "np" arguments =
      .perform (.request (.resize k)) next := by
    simp only [methodCode, hcount]
    exact ⟨_, rfl⟩
  obtain ⟨next, hnext⟩ := hcode
  exact ⟨next, hnext ▸ callMethod_looksUpTo hcoordinator hsome (.here _)⟩

theorem callMethod_np_counts (h : (firstResult arguments).Counts k) :
    ∃ next, LooksUpTo e c (callMethod receiver "np" arguments)
      (.perform (.request (.resize k)) next) := by
  apply callMethod_np hcoordinator hsome
  rw [if_pos h.isTruthy]
  exact Value.asCount?_eq_some_iff.mpr h

theorem callMethod_np_falsy (h : (firstResult arguments).isTruthy = false) :
    ∃ next, LooksUpTo e c (callMethod receiver "np" arguments)
      (.perform (.request (.resize 0)) next) := by
  apply callMethod_np hcoordinator hsome
  rw [h]
  rfl

theorem callMethod_np_refused (htruthy : (firstResult arguments).isTruthy = true)
    (h : ∀ k, ¬ (firstResult arguments).Counts k) :
    LooksUpTo e c (callMethod receiver "np" arguments)
      (.fail (.script (.runtime (receiver ++ ":" ++ "np")
        ("expected a non-negative integer, got " ++ (firstResult arguments).display)))) := by
  have hnone : (firstResult arguments).asCount? = none := by
    rw [Option.eq_none_iff_forall_ne_some]
    exact fun k hk => h k (Value.asCount?_eq_some_iff.mp hk)
  exact MethodFault.looksUpTo (.count hcoordinator hsome rfl htruthy hnone)

end Script

/-- Counts are exact, but for the number 2⁶⁴. A value counts for a number exactly if it is that number
and no more than the largest count, unless it is 2⁶⁴, which counts for the largest count. A directive
about the number of workers is accepted exactly if its argument is a number that counts. The line that is
written for a count gives it by a number that counts for it and requests as many workers. A method call
requests as many workers as its argument counts for; without an argument that is true it only asks for
their number, and with any other one it fails and requests nothing. -/
theorem counts_exact (v : Value) :
    ((∀ k, v.asCount? = some k ↔ v.IsCount k) ↔ ∀ n, v = .number n → n.value? ≠ some (2 ^ 64)) ∧
    (∀ k, v.asCount? = some k ↔ v.Counts k) ∧
    (∀ (s : ScriptSettings) (line argument : String), s.Directs line "NP" argument →
      ∀ (number : Nat) (output : OutputLine) (asked? : Option Nat),
        s.instrumentLine none number line = .ok (output, asked?) ↔
          ∃ n k, tokens argument = .ok [.number n] ∧ (Value.number n).Counts k ∧
            output = ⟨s.methodCall (indentOf line.toList) "np" (toString k), .directive "NP"⟩ ∧
            asked? = none) ∧
    (∀ k, v.Counts k →
      (∃ m, tokens (toString k) = .ok [.number m] ∧ (Value.number m).Counts k) ∧
      ∀ (s : ScriptSettings) (line : String), isName s.receiver = true → s.receiver ≠ "local" →
        Performs s.receiver (s.methodCall (indentOf line.toList) "np" (toString k)) (.resize k)) ∧
    ∀ (e : Engine) (c : ContextId) (receiver : String) (arguments : List Value),
      firstResult arguments = v → (e.target c receiver).isCoordinator = true →
      (e.runtime? c).isSome = true →
        (∀ k, v.Counts k →
          ∃ next, LooksUpTo e c (callMethod receiver "np" arguments)
            (.perform (.request (.resize k)) next)) ∧
        (v.isTruthy = false →
          ∃ next, LooksUpTo e c (callMethod receiver "np" arguments)
            (.perform (.request (.resize 0)) next)) ∧
        (v.isTruthy = true → (∀ k, ¬ v.Counts k) →
          LooksUpTo e c (callMethod receiver "np" arguments)
            (.fail (.script (.runtime (receiver ++ ":" ++ "np")
              ("expected a non-negative integer, got " ++ v.display))))) := by
  refine ⟨Value.asCount?_iff_isCount_iff, fun _ => Value.asCount?_eq_some_iff,
    fun _ _ _ hdirects _ _ _ => ScriptSettings.instrumentLine_np_iff hdirects,
    fun _ hcounts => ⟨hcounts.tokens,
      fun _ line hreceiver hlocal => hcounts.performs hreceiver hlocal line⟩, ?_⟩
  rintro e c receiver arguments rfl hcoordinator hsome
  exact ⟨fun _ => callMethod_np_counts hcoordinator hsome, callMethod_np_falsy hcoordinator hsome,
    callMethod_np_refused hcoordinator hsome⟩

/-- The double 2⁶⁴. -/
def pastMaxCount : Double :=
  .ofBits 0x43f0000000000000

/-- An engine with one context, which can reach its coordinator as `c`. -/
def counterEngine : Engine :=
  (({ Engine.initial "counter" none with liveRuntimes := [0] }.createContext.2.bind 0 0).set 0 "c"
    (.handle ⟨⟨.minted, 0⟩, .coordinator, .owned⟩))

/-- The double 2⁶⁴ counts for one less, in a directive and in a script, and a half does not count. -/
theorem counts_exact_boundary :
    pastMaxCount.value? = some (2 ^ 64) ∧
    (Value.number pastMaxCount).asCount? = some Double.maxCount ∧
    ScriptSettings.standard.Directs "--# NP 18446744073709551616" "NP" "18446744073709551616" ∧
    ScriptSettings.standard.instrumentLine none 1 "--# NP 18446744073709551616" =
      .ok (⟨"coordinator:np(18446744073709551615)", .directive "NP"⟩, none) ∧
    Performs "coordinator" "coordinator:np(18446744073709551615)" (.resize Double.maxCount) ∧
    ∃ next, LooksUpTo counterEngine 0 (callMethod "c" "np" [.number pastMaxCount])
      (.perform (.request (.resize Double.maxCount)) next) := by
  obtain ⟨-, hcounts, hdirective, hwritten, hscript⟩ := counts_exact (.number pastMaxCount)
  have hcount : (Value.number pastMaxCount).asCount? = some Double.maxCount := by decide +kernel
  have hpast := (hcounts _).mp hcount
  have hvalue : pastMaxCount.value? = some ((2 ^ 64 : Nat) : ℚ) :=
    Double.integer?_eq_natCast_iff.mp (by decide +kernel)
  have hdirects : ScriptSettings.standard.Directs "--# NP 18446744073709551616" "NP"
      "18446744073709551616" :=
    ⟨" NP 18446744073709551616".toList, by decide +kernel, by decide +kernel, by decide +kernel⟩
  have hread : tokens "18446744073709551616" = .ok [.number pastMaxCount] := by decide +kernel
  have htext : ScriptSettings.standard.methodCall (indentOf "--# NP 18446744073709551616".toList)
      "np" (toString Double.maxCount) = "coordinator:np(18446744073709551615)" := by decide +kernel
  have hline := (hdirective _ _ _ hdirects 1 _ _).mpr ⟨_, _, hread, hpast, rfl, rfl⟩
  have hperforms := (hwritten _ hpast).2 .standard "--# NP 18446744073709551616" (by decide)
    (by decide)
  rw [htext] at hline hperforms
  exact ⟨by exact_mod_cast hvalue, hcount, hdirects, hline, hperforms,
    (hscript counterEngine 0 "c" [.number pastMaxCount] rfl (by decide +kernel)
      (by decide +kernel)).1 _ hpast⟩

end ScriptPool
