import ScriptPool.Proofs.Directive.OutputText
import ScriptPool.Proofs.Directive.SectionId

namespace ScriptPool

open ScriptPool.Number ScriptPool.Text ScriptPool.Token

/-- Whether a line is empty or a statement. -/
def Statement.accepts (line : List Char) : Bool :=
  (Statement.ofLine? line).isOk

/-- Whether a text is a chunk. -/
def Chunk.accepts (name text : String) : Bool :=
  (Chunk.parse name text).isOk

theorem Chunk.readLines_isOk (name : String) (number : Nat) (lines : List (List Char)) :
    (Chunk.readLines name number lines).isOk = lines.all Statement.accepts := by
  induction lines generalizing number with
  | nil => rfl
  | cons line lines ih =>
      rw [Chunk.readLines, List.all_cons, ← ih (number + 1), Statement.accepts]
      cases Statement.ofLine? line with
      | error fault => rfl
      | ok found =>
          cases Chunk.readLines name (number + 1) lines with
          | error e => rfl
          | ok more =>
              cases found with
              | none | some => rfl

theorem Chunk.accepts_eq (name text : String) :
    Chunk.accepts name text = (Text.lines text.toList).all Statement.accepts := by
  rw [← Chunk.readLines_isOk name 1, Chunk.accepts, Chunk.parse]
  cases Chunk.readLines name 1 (Text.lines text.toList) with
  | error | ok => rfl

theorem Chunk.accepts_of_unbroken {text : String} (h : Unbroken text.toList) (name : String) :
    Chunk.accepts name text = Statement.accepts text.toList := by
  rw [Chunk.accepts_eq, Text.lines, Text.pieces_of_not_mem h.1]
  cases htext : text.toList with
  | nil =>
      rw [Statement.accepts, ofLine?_blanks (List.forall_mem_nil _)]
      rfl
  | cons c cs => simp [finishLines]

theorem readsFirst_equals (rest : List Char) : ReadsFirst ('=' :: rest) .equals rest :=
  readsFirst_mark (by decide) (by decide) fun _ => rfl

theorem readAll_header {receiver : String} (h : isName receiver = true) (column : Nat) :
    Token.readAll column (receiver ++ " = Coordinator()").toList =
      .ok [.name receiver, .equals, .name "Coordinator", .opening, .closing] := by
  have hspace {rest : List Char} {ts : List Token}
      (hrest : ∀ column, Token.readAll column rest = .ok ts) (column : Nat) :
      Token.readAll column (' ' :: rest) = .ok ts := by
    rw [Token.readAll, if_pos isBlank_space]
    exact hrest _
  have hend : ∀ column, Token.readAll column [] = .ok [] := fun column => by rw [Token.readAll]
  have hcall : ∀ column, Token.readAll column ("Coordinator".toList ++ "()".toList) =
      .ok [.name "Coordinator", .opening, .closing] :=
    (spells_name (by decide) (stops_punctuation (.inr (.inl rfl)) _)).ok
      ((readsFirst_opening _).ok ((readsFirst_closing _).ok hend))
  have hstops : Stops " = Coordinator()".toList := by
    rintro c ⟨⟩
    decide
  rw [String.toList_append]
  exact (spells_name h hstops).ok (hspace ((readsFirst_equals _).ok (hspace hcall))) column

theorem accepts_header {receiver : String} (h : isName receiver = true) :
    Statement.accepts (receiver ++ " = Coordinator()").toList = true ↔ receiver ≠ "local" := by
  have hread := readAll_header h 1
  rw [Statement.accepts, Statement.ofLine?, hread]
  constructor
  · rintro haccepts rfl
    cases haccepts
  · intro hlocal
    have hpart : Statement.readPart
        [.name receiver, .equals, .name "Coordinator", .opening, .closing] =
        .ok (.assign [receiver] [.call "Coordinator" []], []) := by
      unfold Statement.readPart
      split
      · next hkeyword =>
          cases hkeyword
          exact absurd rfl hlocal
      · rfl
    dsimp only
    rw [Statement.ofTokens, hpart]
    rfl

section Line

variable {s : ScriptSettings} {d : Directive} {name arguments : String} {indent : List Char}

theorem accepts_callText {ts : List Token} {values : List Expr}
    (hreceiver : isName s.receiver = true) (hlocal : s.receiver ≠ "local")
    (hindent : ∀ c ∈ indent, isBlank c = true) (hname : isName name = true)
    (harguments : WritesArguments arguments ts values) :
    Statement.accepts (indent ++ callText s.receiver name arguments) = true := by
  rw [Statement.accepts, ofLine?_callText hreceiver hlocal hname harguments hindent]
  rfl

theorem Directive.accepts_section {method : String} (hreceiver : isName s.receiver = true)
    (hlocal : s.receiver ≠ "local") (hindent : ∀ c ∈ indent, isBlank c = true)
    (hcommand : d.command = .ok (.method name arguments))
    (hmethod : d.sectionMethod? = some method) :
    Statement.accepts (indent ++ callText s.receiver name arguments) = true ↔
      tokens d.argument ≠ .ok [.number (.infinite true)] := by
  obtain ⟨rfl, hid, hsection⟩ := Directive.sectionMethod?_command hcommand hmethod
  have hname : isName name = true := by
    rcases hsection with rfl | rfl
    · decide
    · decide
  have hwritten {ts : List Token} {values : List Expr}
      (harguments : WritesArguments arguments ts values) :
      Statement.accepts (indent ++ callText s.receiver name arguments) = true :=
    accepts_callText hreceiver hlocal hindent hname harguments
  rcases Directive.sectionId_tokens hid with ⟨n, htokens, rfl⟩ | ⟨id, htokens, rfl⟩
  · rw [htokens]
    cases n with
    | nan => exact absurd List.mem_cons_self (readAll_ne_nan htokens)
    | infinite negative =>
        cases negative with
        | false => exact iff_of_true (hwritten (.global (by decide))) (by rintro ⟨⟩)
        | true =>
            -- Behind the parenthesis comes a hyphen that starts neither a number nor a comment.
            obtain ⟨column, hread⟩ := readAll_blanks hindent (callText s.receiver name "-inf") 1
            obtain ⟨column', hcall⟩ := readAll_callText hreceiver hname "-inf" column
            obtain ⟨e, he⟩ := readAll_minus_inf column'
            rw [hcall, he] at hread
            refine iff_of_false (fun haccepts => ?_) fun hne => hne rfl
            have htext : Value.displayNumber (.infinite true) = "-inf" := rfl
            rw [htext, Statement.accepts, Statement.ofLine?, hread] at haccepts
            cases haccepts
    | finite negative x =>
        obtain ⟨m, hwrites, -⟩ := displayNumber_writes negative x
        exact iff_of_true (hwritten (writesArguments_number hwrites)) (by rintro ⟨⟩)
  · exact iff_of_true (hwritten (writesArguments_quote id)) (by rw [htokens]; rintro ⟨⟩)

theorem Directive.accepts_other (hreceiver : isName s.receiver = true)
    (hlocal : s.receiver ≠ "local") (hindent : ∀ c ∈ indent, isBlank c = true)
    (hcommand : d.command = .ok (.method name arguments)) (hmethod : d.sectionMethod? = none) :
    Statement.accepts (indent ++ callText s.receiver name arguments) = true := by
  rcases Directive.command_cases hcommand with ⟨-, ⟨⟩⟩ | ⟨-, ⟨⟩⟩ | ⟨-, function, -, ⟨⟩⟩ |
    ⟨hd, -⟩ | ⟨hd, -⟩ | ⟨-, count, hcount, ⟨⟩⟩
  · exact accepts_callText hreceiver hlocal hindent (by decide) .none
  · exact accepts_callText hreceiver hlocal hindent (by decide) (writesArguments_quote function)
  · simp [Directive.sectionMethod?, hd] at hmethod
  · simp [Directive.sectionMethod?, hd] at hmethod
  · obtain ⟨n, -, hn⟩ := Directive.workerCount_tokens hcount
    obtain ⟨m, hwrites, -⟩ := count?_writes hn
    exact accepts_callText hreceiver hlocal hindent (by decide) (writesArguments_number hwrites)

end Line

/-- What a part needs for its written line to be accepted. -/
def LineRole.Accepted : LineRole → Prop
  | .kept line => Statement.accepts line.toList = true
  | .call _ => True
  | .directive d =>
    d.sectionMethod?.isSome = true → tokens d.argument ≠ .ok [.number (.infinite true)]

theorem ScriptSettings.Writes.accepts_iff {s : ScriptSettings} {role : LineRole}
    {output : OutputLine} (hreceiver : isName s.receiver = true) (hlocal : s.receiver ≠ "local")
    (h : s.Writes role output) :
    Statement.accepts output.text.toList = true ↔ role.Accepted := by
  cases h with
  | kept line => exact Iff.rfl
  | call hindent hparse =>
      rw [String.toList_ofList]
      exact iff_of_true (accepts_callText hreceiver hlocal hindent (by decide)
        (writesArguments_quote _)) trivial
  | @directive d name arguments indent hindent hcommand =>
      rw [String.toList_ofList, LineRole.Accepted]
      cases hmethod : d.sectionMethod? with
      | none =>
          have haccepts := Directive.accepts_other hreceiver hlocal hindent hcommand hmethod
          exact iff_of_true haccepts (by rintro ⟨⟩)
      | some method =>
          rw [Directive.accepts_section hreceiver hlocal hindent hcommand hmethod]
          simp

theorem Directive.eq_append_of_dropMarker? {marker line rest : List Char}
    (h : Directive.dropMarker? marker line = some rest) : marker ++ rest = line := by
  fun_induction Directive.dropMarker? marker line with
  | case1 line =>
      cases h
      rfl
  | case2 => cases h
  | case3 m marker line ih => rw [List.cons_append, ih h]
  | case4 => cases h

namespace ScriptSettings

variable {s : ScriptSettings}

theorem accepts_toSource_iff (hreceiver : isName s.receiver = true) (hheader : s.header? = none)
    {source : String} {script : Instrumented} (h : Instrumented.ofSource s source = .ok script)
    (chunk : String) : Chunk.accepts chunk script.toSource = true ↔ s.receiver ≠ "local" ∧
      ∀ role ∈ s.roles false (Instrumented.sourceLines source), role.Accepted := by
  have hwrites := Instrumented.ofLines_writes h
  have hunbroken := headerLine_unbroken hreceiver hheader
  have hfirst : script.headerLines = [(s.receiver ++ " = Coordinator()").toList] := by
    rw [Instrumented.headerLines, Instrumented.ofSource_header h,
      Text.pieces_of_not_mem hunbroken.1, List.map_singleton,
      Text.dropReturn_of_unbroken hunbroken, headerLine, hheader]
    rfl
  rw [Chunk.accepts_eq, Instrumented.lines_toSource (Instrumented.ofSource_unbroken hreceiver h),
    hfirst, List.singleton_append, List.all_cons, Bool.and_eq_true, accepts_header hreceiver]
  refine and_congr_right fun hlocal => ?_
  rw [List.all_map, List.all_eq_true]
  generalize s.roles false (Instrumented.sourceLines source) = roles at hwrites ⊢
  generalize script.lines = outputs at hwrites ⊢
  induction hwrites with
  | nil => simp
  | cons hwritten hrest ih =>
      rw [List.forall_mem_cons, List.forall_mem_cons, ih, Function.comp_apply,
        hwritten.accepts_iff hreceiver hlocal]

theorem mem_of_kept {waiting : Bool} {lines : List String} {line : String}
    (h : .kept line ∈ s.roles waiting lines) : line ∈ lines := by
  have hrole {waiting : Bool} {first : String} (heq : .kept line = (s.role waiting first).1) :
      line = first := by
    unfold role at heq
    split at heq
    · split at heq
      · cases heq
        rfl
      · cases heq
    · split at heq
      · cases heq
        rfl
      · split at heq
        · cases heq
          rfl
        · cases heq
  induction lines generalizing waiting with
  | nil => cases h
  | cons first lines ih =>
      rcases List.mem_cons.mp h with hfirst | hrest
      · exact hrole hfirst ▸ List.mem_cons_self
      · exact List.mem_cons_of_mem _ (ih hrest)

/-- Whether a line starts with the marker. -/
def isDirective (s : ScriptSettings) (line : String) : Bool :=
  (Directive.ofLine? s.marker.toList line.toList).isSome

theorem accepts_of_comment (hmarker : ['-', '-'] <+: s.marker.toList) {line : String}
    (h : s.isDirective line = true) : Statement.accepts line.toList = true := by
  rw [isDirective, Directive.ofLine?, Option.isSome_map] at h
  obtain ⟨rest, hrest⟩ := Option.isSome_iff_exists.mp h
  obtain ⟨marker, hmarker⟩ := hmarker
  have hline : ∃ after, trimStart line.toList = '-' :: '-' :: after := by
    rw [← Directive.eq_append_of_dropMarker? hrest, ← hmarker]
    exact ⟨_, rfl⟩
  obtain ⟨after, hafter⟩ := hline
  have hblanks : ∀ c ∈ indentOf line.toList, isBlank c = true := isBlank_of_mem_indentOf
  obtain ⟨column, hread⟩ := readAll_blanks hblanks ('-' :: '-' :: after) 1
  rw [← hafter, indentOf_append_trimStart, hafter, Token.readAll, if_neg (by decide),
    if_pos ⟨rfl, rfl⟩] at hread
  rw [Statement.accepts, Statement.ofLine?, hread]
  rfl

end ScriptSettings

/-- Which scripts are loaded, when their own lines are statements: those whose receiver is no
keyword, whose `PARALLEL` lines can be left as they are, and that name no section by the negative
infinite number. Where the marker starts a comment, a `PARALLEL` line can always be left. -/
theorem instrumented_loads_iff {s : ScriptSettings} (hs : s.fault? = none)
    (hheader : s.header? = none) {source : String} {script : Instrumented}
    (h : Instrumented.ofSource s source = .ok script) (chunk : String)
    (hown : ∀ line, .kept line ∈ s.roles false (Instrumented.sourceLines source) →
      s.isDirective line = false → Chunk.accepts chunk line = true) :
    (Chunk.accepts chunk script.toSource = true ↔ s.receiver ≠ "local" ∧
      (∀ line, .kept line ∈ s.roles false (Instrumented.sourceLines source) →
        s.isDirective line = true → Chunk.accepts chunk line = true) ∧
      ∀ d, .directive d ∈ s.roles false (Instrumented.sourceLines source) →
        d.sectionMethod?.isSome = true → tokens d.argument ≠ .ok [.number (.infinite true)]) ∧
    (['-', '-'] <+: s.marker.toList →
      ∀ line, .kept line ∈ s.roles false (Instrumented.sourceLines source) →
        s.isDirective line = true → Chunk.accepts chunk line = true) := by
  have hkept : ∀ line, .kept line ∈ s.roles false (Instrumented.sourceLines source) →
      Chunk.accepts chunk line = Statement.accepts line.toList := fun line hmem =>
    Chunk.accepts_of_unbroken
      (Instrumented.sourceLines_unbroken (ScriptSettings.mem_of_kept hmem)) chunk
  constructor
  · rw [ScriptSettings.accepts_toSource_iff (ScriptSettings.isName_receiver hs) hheader h chunk]
    refine and_congr_right fun _ => ⟨fun hall => ⟨fun line hmem _ => ?_, fun d hmem => ?_⟩, ?_⟩
    · rw [hkept line hmem]
      exact hall _ hmem
    · exact hall _ hmem
    · rintro ⟨hparallel, hsections⟩ role hmem
      cases role with
      | kept line =>
          rw [LineRole.Accepted, ← hkept line hmem]
          cases hdirective : s.isDirective line with
          | true => exact hparallel line hmem hdirective
          | false => exact hown line hmem hdirective
      | call text => trivial
      | directive d => exact hsections d hmem
  · intro hmarker line hmem hdirective
    rw [hkept line hmem]
    exact ScriptSettings.accepts_of_comment hmarker hdirective

/-- A script with lines of its own, a deferred call, a section and a join. -/
def loadedSource : String :=
  "x = 1\n--# PARALLEL\n\nr = f(x) -- later\n--# ACQUIRE 'a'\r\n--# JOIN f\n"

/-- It is loaded under the usual settings. -/
theorem instrumented_loads_usual : ∃ script,
    Instrumented.ofSource .standard loadedSource = .ok script ∧
    Chunk.accepts "run" script.toSource = true := by
  have hsome : (Instrumented.ofSource .standard loadedSource).isOk = true := by
    decide +kernel
  have hroles : ((ScriptSettings.standard.roles false
      (Instrumented.sourceLines loadedSource)).all fun
      | .kept line => ScriptSettings.standard.isDirective line || Chunk.accepts "run" line
      | .call _ => true
      | .directive d => tokens d.argument ≠ .ok [.number (.infinite true)]) = true := by
    decide +kernel
  rw [List.all_eq_true] at hroles
  cases hscript : Instrumented.ofSource .standard loadedSource with
  | error e =>
      rw [hscript] at hsome
      cases hsome
  | ok script =>
      obtain ⟨hloads, hparallel⟩ := instrumented_loads_iff
        (rfl : ScriptSettings.standard.fault? = none) rfl hscript "run"
        (fun line hmem hdirective => by simpa [hdirective] using hroles _ hmem)
      refine ⟨script, rfl, hloads.mpr ⟨by decide, hparallel (by decide), fun d hmem _ => ?_⟩⟩
      exact of_decide_eq_true (hroles _ hmem)

/-- A marker that starts no comment: the `PARALLEL` line is no statement, and so the script is not
loaded. -/
example : (Instrumented.ofSource { ScriptSettings.standard with marker := "#" }
    "# PARALLEL\nr = one()\n").toOption.map (fun script => Chunk.accepts "run" script.toSource) =
      some false := by
  decide +kernel

end ScriptPool
