import ScriptPool.Proofs.Directive.LineRole
import ScriptPool.Proofs.Text.Unbroken

namespace ScriptPool

open ScriptPool.Number ScriptPool.Number.Numeral ScriptPool.Text ScriptPool.Token

theorem Directive.tokens_of_argumentToken {d : Directive} {t : Token}
    (h : d.argumentToken = .ok t) : tokens d.argument = .ok [t] := by
  unfold argumentToken at h
  split at h
  · cases h
  · split at h
    · cases h
    · cases h
    · next hread =>
        cases h
        exact hread
    · cases h

theorem quote_single (text : String) : '\n' ∉ (quote text).toList :=
  (quote_unbroken text).1

theorem writes_single {text : String} {n : Double} (h : Writes text n) : '\n' ∉ text.toList :=
  (writes_unbroken h).1

theorem writesArguments_quote (text : String) :
    WritesArguments (quote text) [.string text] [.literal (.string text)] :=
  .literal rfl (spells_quote text)

theorem writesArguments_number {text : String} {n : Double} (h : Writes text n) :
    WritesArguments text [.number n] [.literal (.number n)] :=
  .literal rfl (spells_number h)

/-- The request that a directive stands for. -/
inductive Directive.Means : Directive → Request → Prop where
  | joinAll {d : Directive} (hkeyword : d.keyword = "JOINALL") : Means d .joinAll
  | join {d : Directive} {function : String} (hkeyword : d.keyword = "JOIN")
      (hargument : tokens d.argument = .ok [.name function] ∨
        tokens d.argument = .ok [.string function]) : Means d (.join function)
  | resize {d : Directive} {n : Double} {count : Nat} (hkeyword : d.keyword = "NP")
      (hargument : tokens d.argument = .ok [.number n]) (hcount : n.count? = some count) :
      Means d (.resize count)

theorem Directive.functionName_tokens {d : Directive} {function : String}
    (h : d.functionName = .ok function) :
    tokens d.argument = .ok [.name function] ∨ tokens d.argument = .ok [.string function] := by
  unfold functionName at h
  split at h
  · cases h
  · next hargument =>
      cases h
      exact .inl (tokens_of_argumentToken hargument)
  · next hargument =>
      split at h
      · cases h
        exact .inr (tokens_of_argumentToken hargument)
      · cases h
  · cases h

theorem Directive.workerCount_tokens {d : Directive} {count : Nat} (h : d.workerCount = .ok count) :
    ∃ n, tokens d.argument = .ok [.number n] ∧ n.count? = some count := by
  unfold workerCount at h
  split at h
  · cases h
  · next t hargument =>
      split at h
      · next hcount =>
          cases h
          cases t with
          | number n => exact ⟨n, tokens_of_argumentToken hargument, hcount⟩
          | string | nil | boolean | name | opening | closing | comma | equals | colon =>
              cases hcount
      · cases h

section Receiver

variable {s : ScriptSettings} (hreceiver : isName s.receiver = true) (hlocal : s.receiver ≠ "local")
include hreceiver hlocal

theorem performs_parallel {indent : List Char} (hindent : ∀ c ∈ indent, isBlank c = true)
    (text : String) : Performs s.receiver
      (String.ofList (indent ++ callText s.receiver "parallel" (quote text))) (.parallel text) :=
  performs_of_line hreceiver (by decide) (quote_single text) hindent hlocal
    (writesArguments_quote text) (.parallel text)

theorem performs_directive {d : Directive} {name arguments : String} {indent : List Char}
    (hindent : ∀ c ∈ indent, isBlank c = true) (hcommand : d.command = .ok (.method name arguments))
    (hkeyword : d.keyword = "JOIN" ∨ d.keyword = "JOINALL" ∨ d.keyword = "NP") :
    ∃ r, d.Means r ∧
      Performs s.receiver (String.ofList (indent ++ callText s.receiver name arguments)) r := by
  rcases Directive.command_cases hcommand with ⟨-, ⟨⟩⟩ | ⟨hd, ⟨⟩⟩ | ⟨hd, function, hfunction, ⟨⟩⟩ |
    ⟨hd, -⟩ | ⟨hd, -⟩ | ⟨hd, count, hcount, ⟨⟩⟩
  · exact ⟨.joinAll, .joinAll hd, performs_of_line hreceiver (by decide) List.not_mem_nil hindent
      hlocal .none .joinAll⟩
  · exact ⟨.join function, .join hd (Directive.functionName_tokens hfunction),
      performs_of_line hreceiver (by decide) (quote_single function) hindent hlocal
        (writesArguments_quote function) (.join function)⟩
  · simp [hd] at hkeyword
  · simp [hd] at hkeyword
  · obtain ⟨n, hargument, hn⟩ := Directive.workerCount_tokens hcount
    obtain ⟨m, hwrites, hm⟩ := count?_writes hn
    exact ⟨.resize count, .resize hd hargument hn,
      performs_of_line hreceiver (by decide) (writes_single hwrites) hindent hlocal
        (writesArguments_number hwrites) (.resize hm)⟩

end Receiver

/-- The line written for a deferred call, a join or a number of workers makes the one request that the
line of the script stands for, and the text of a deferred call is a call. A line without a part is
kept. -/
def ScriptSettings.Honors (s : ScriptSettings) : LineRole → OutputLine → Prop
  | .kept line, output => output.text = line
  | .call text, output =>
    (∃ call, Call.parse text = .ok call) ∧ Performs s.receiver output.text (.parallel text)
  | .directive d, output =>
    d.keyword = "JOIN" ∨ d.keyword = "JOINALL" ∨ d.keyword = "NP" →
      ∃ r, d.Means r ∧ Performs s.receiver output.text r

/-- Every script that can be instrumented is honored line by line. -/
theorem instrumented_lines_mean {s : ScriptSettings} (hreceiver : isName s.receiver = true)
    (hlocal : s.receiver ≠ "local") {lines : List String} {script : Instrumented}
    (h : Instrumented.ofLines s lines = .ok script) :
    List.Forall₂ s.Honors (s.roles false lines) script.lines := by
  apply (Instrumented.ofLines_writes h).imp
  intro role output hwrites
  cases hwrites with
  | kept line => rfl
  | call hindent hparse => exact ⟨⟨_, hparse⟩, performs_parallel hreceiver hlocal hindent _⟩
  | directive hindent hcommand => exact performs_directive hreceiver hlocal hindent hcommand

/-- Lines with quotes, a tab, a comment, a letter beyond ASCII and a count that is no double. -/
def sampleLines : List String :=
  ["--# NP 18446744073709551615", "--# PARALLEL", "\tr = f(\"a\\\"b\", x) -- é", "--# JOIN f",
    "x = 1", "  --# JOINALL"]

/-- What is written for them. -/
def sampleTexts : List String :=
  ["coordinator:np(18446744073709551615)", "--# PARALLEL",
    "\tcoordinator:parallel(\"r = f(\\\"a\\\\\\\"b\\\", x) -- é\")", "coordinator:join(\"f\")",
    "x = 1", "  coordinator:joinall()"]

theorem instrumented_lines_mean_sample : ∃ script,
    Instrumented.ofLines .standard sampleLines = .ok script ∧
    script.lines.map (·.text) = sampleTexts ∧
    List.Forall₂ ScriptSettings.standard.Honors (ScriptSettings.standard.roles false sampleLines)
      script.lines := by
  have htexts : Instrumented.lineTexts? .standard sampleLines = some sampleTexts := by
    decide +kernel
  obtain ⟨script, hscript, htexts⟩ := Instrumented.exists_of_lineTexts? htexts
  exact ⟨script, hscript, htexts, instrumented_lines_mean (by decide) (by decide) hscript⟩

end ScriptPool
