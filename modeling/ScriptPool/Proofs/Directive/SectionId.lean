import ScriptPool.Proofs.Directive.Meaning
import ScriptPool.Section.Registry

namespace ScriptPool

open ScriptPool.Number ScriptPool.Number.Numeral ScriptPool.Text ScriptPool.Token

theorem ofQuotient_ne_nan (negative : Bool) (a b : Nat) : Double.ofQuotient negative a b ≠ .nan := by
  unfold Double.ofQuotient
  split
  · rintro ⟨⟩
  · rintro ⟨⟩

theorem toDouble_ne_nan (numeral : Numeral) : numeral.toDouble ≠ .nan := by
  unfold toDouble
  dsimp only
  split_ifs
  · rintro ⟨⟩
  · rintro ⟨⟩
  · rintro ⟨⟩
  · exact ofQuotient_ne_nan _ _ _

theorem ofWord_ne_number (word : String) (n : Double) : ofWord word ≠ .number n := by
  unfold ofWord
  split_ifs
  · rintro ⟨⟩
  · rintro ⟨⟩
  · rintro ⟨⟩
  · rintro ⟨⟩

theorem read_ne_nan {column : Nat} {c : Char} {rest after : List Char} :
    Token.read column c rest ≠ .ok (.number .nan, after) := by
  intro h
  unfold Token.read at h
  split_ifs at h with h₁ h₂ h₃ h₄ h₅ hquote hnumber hname
  · cases h
  · cases h
  · cases h
  · cases h
  · cases h
  · split at h
    · cases h
    · cases h
  · dsimp only at h
    split at h
    · next numeral hnumeral =>
        rw [Except.ok.injEq, Prod.mk.injEq, Token.number.injEq] at h
        exact toDouble_ne_nan numeral h.1
    · cases h
  · rw [Except.ok.injEq, Prod.mk.injEq] at h
    exact ofWord_ne_number _ _ h.1

theorem readAll_ne_nan {column : Nat} {cs : List Char} {ts : List Token}
    (h : Token.readAll column cs = .ok ts) : .number .nan ∉ ts := by
  have hall := forall_mem_of_readAll (p := (· ≠ .number .nan)) (fun hread heq => by
    subst heq
    exact read_ne_nan hread) h
  exact fun hmem => hall _ hmem rfl

/-- The method that a directive about a critical section stands for. -/
def Directive.sectionMethod? (d : Directive) : Option String :=
  if d.keyword = "ACQUIRE" then some "acquire"
  else if d.keyword = "RELEASE" then some "release"
  else none

/-- The line written for a directive with a section id. A string and a finite number are read back as
an id of the same section, and running the line makes the one request for it. A positive infinite
number is read back as a global, and the line of a negative one is no statement. -/
def ScriptSettings.KeepsSection (s : ScriptSettings) : LineRole → OutputLine → Prop
  | .directive d, output => ∀ method, d.sectionMethod? = some method →
    ∃ t id, tokens d.argument = .ok [t] ∧ t.literal? = some id ∧ match id with
      | .number (.infinite false) => ∃ number, ∀ chunk, Chunk.parse chunk output.text =
          .ok ⟨chunk, [(number, .call (.method s.receiver method [.global "inf"]))]⟩
      | .number (.infinite true) => ∀ chunk, ∃ e, Chunk.parse chunk output.text = .error e
      | _ => ∃ id' r name, Requests method [id'] r ∧ Performs s.receiver output.text r ∧
          sectionName id = .ok name ∧ sectionName id' = .ok name
  | _, _ => True

theorem Directive.sectionId_tokens {d : Directive} {text : String} (h : d.sectionId = .ok text) :
    (∃ n, tokens d.argument = .ok [.number n] ∧ text = Value.displayNumber n) ∨
      ∃ id, tokens d.argument = .ok [.string id] ∧ text = quote id := by
  unfold sectionId at h
  split at h
  · cases h
  · next n hargument =>
      cases h
      exact .inl ⟨n, tokens_of_argumentToken hargument, rfl⟩
  · next id hargument =>
      cases h
      exact .inr ⟨id, tokens_of_argumentToken hargument, rfl⟩
  · cases h

theorem Directive.sectionMethod?_command {d : Directive} {name arguments method : String}
    (hcommand : d.command = .ok (.method name arguments)) (h : d.sectionMethod? = some method) :
    name = method ∧ d.sectionId = .ok arguments ∧ (method = "acquire" ∨ method = "release") := by
  have hkeyword : d.keyword = "ACQUIRE" ∨ d.keyword = "RELEASE" := by
    unfold sectionMethod? at h
    split_ifs at h with hacquire hrelease
    · exact .inl hacquire
    · exact .inr hrelease
  unfold sectionMethod? at h
  rcases Directive.command_cases hcommand with ⟨hd, -⟩ | ⟨hd, -⟩ | ⟨hd, -⟩ | ⟨hd, id, hid, ⟨⟩⟩ |
    ⟨hd, id, hid, ⟨⟩⟩ | ⟨hd, -⟩
  · simp [hd] at hkeyword
  · simp [hd] at hkeyword
  · simp [hd] at hkeyword
  · simp [hd] at h
    exact ⟨h, hid, .inl h.symm⟩
  · simp [hd] at h
    exact ⟨h, hid, .inr h.symm⟩
  · simp [hd] at hkeyword

theorem requests_section {method : String} (h : method = "acquire" ∨ method = "release")
    (id : Value) : ∃ r, Requests method [id] r := by
  rcases h with rfl | rfl
  · exact ⟨.acquire id, .acquire id⟩
  · exact ⟨.release id, .release id⟩

/-- Section directives keep their ids, except for infinite numbers. -/
theorem instrumented_sections_keep {s : ScriptSettings} (hreceiver : isName s.receiver = true)
    (hlocal : s.receiver ≠ "local") {lines : List String} {script : Instrumented}
    (h : Instrumented.ofLines s lines = .ok script) :
    List.Forall₂ s.KeepsSection (s.roles false lines) script.lines := by
  apply (Instrumented.ofLines_writes h).imp
  intro role output hwrites
  cases hwrites with
  | kept line => trivial
  | call hindent hparse => trivial
  | @directive d name arguments indent hindent hcommand =>
      intro method hmethod
      obtain ⟨rfl, hid, hsection⟩ := Directive.sectionMethod?_command hcommand hmethod
      have hname : isName name = true := by
        rcases hsection with rfl | rfl
        · decide
        · decide
      rcases Directive.sectionId_tokens hid with ⟨n, htokens, rfl⟩ | ⟨id, htokens, rfl⟩
      · refine ⟨.number n, .number n, htokens, rfl, ?_⟩
        cases n with
        | nan => exact absurd List.mem_cons_self (readAll_ne_nan htokens)
        | infinite negative =>
            cases negative with
            | false =>
                have htext : '\n' ∉ (Value.displayNumber (.infinite false)).toList := by decide
                exact parse_callText hreceiver hname htext hindent hlocal (.global (by decide))
            | true =>
                have htext : '\n' ∉ (Value.displayNumber (.infinite true)).toList := by decide
                exact parse_callText_fails hreceiver hname htext hindent readAll_minus_inf
        | finite negative x =>
            obtain ⟨m, hwrites, -, hsame⟩ := displayNumber_writes negative x
            obtain ⟨r, hr⟩ := requests_section hsection (.number m)
            refine ⟨.number m, r, _, hr, ?_, rfl, congrArg Except.ok hsame⟩
            exact performs_of_line hreceiver hname (writes_single hwrites) hindent hlocal
              (writesArguments_number hwrites) hr
      · obtain ⟨r, hr⟩ := requests_section hsection (.string id)
        refine ⟨.string id, .string id, htokens, rfl, .string id, r, id, hr, ?_, rfl, rfl⟩
        exact performs_of_line hreceiver hname (quote_single id) hindent hlocal
          (writesArguments_quote id) hr

/-- Ids with a fraction, with an exponent, with a sign, and an infinite one. -/
def sectionLines : List String :=
  ["--# ACQUIRE 00.10", "--# RELEASE 1e23", "--# ACQUIRE -5e-324 -- tiny", "--# RELEASE '\"\\t\"'",
    "--# ACQUIRE 1e400"]

def sectionTexts : List String :=
  ["coordinator:acquire(0.1)", "coordinator:release(100000000000000000000000)",
    "coordinator:acquire(-0." ++ String.ofList (List.replicate 323 '0') ++ "5)",
    "coordinator:release(\"\\\"\\t\\\"\")", "coordinator:acquire(inf)"]

theorem instrumented_sections_keep_sample : ∃ script,
    Instrumented.ofLines .standard sectionLines = .ok script ∧
    script.lines.map (·.text) = sectionTexts ∧
    List.Forall₂ ScriptSettings.standard.KeepsSection
      (ScriptSettings.standard.roles false sectionLines) script.lines := by
  have htexts : Instrumented.lineTexts? .standard sectionLines = some sectionTexts := by
    decide +kernel
  obtain ⟨script, hscript, htexts⟩ := Instrumented.exists_of_lineTexts? htexts
  exact ⟨script, hscript, htexts, instrumented_sections_keep (by decide) (by decide) hscript⟩

end ScriptPool
