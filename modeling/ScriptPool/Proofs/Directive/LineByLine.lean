import Mathlib.Data.Set.Card
import ScriptPool.Proofs.Directive.Loadable
import ScriptPool.Proofs.Directive.SourceLine

namespace ScriptPool

open ScriptPool.Number ScriptPool.Text

/-- Nothing but blanks is on the line. -/
def Text.IsBlankLine (line : String) : Prop :=
  ∀ c ∈ line.toList, isBlank c = true

/-- A section is named by a number or a string. -/
def Directive.IsSectionId : Token → Prop
  | .number _ | .string _ => True
  | _ => False

/-- The method and the written arguments of the call that a directive stands for. -/
inductive Directive.Becomes (argument : String) : (keyword method arguments : String) → Prop where
  | joinAll : Becomes argument "JOINALL" "joinall" ""
  | join {function : String} (h : tokens argument = .ok [.name function] ∨
      tokens argument = .ok [.string function]) :
      Becomes argument "JOIN" "join" (quote function)
  | acquire {id : Token} (h : tokens argument = .ok [id]) (hid : IsSectionId id) :
      Becomes argument "ACQUIRE" "acquire" id.display
  | release {id : Token} (h : tokens argument = .ok [id]) (hid : IsSectionId id) :
      Becomes argument "RELEASE" "release" id.display
  | resize {n : Double} {count : Nat} (h : tokens argument = .ok [.number n])
      (hcount : n.count? = some count) : Becomes argument "NP" "np" (toString count)

namespace ScriptSettings

/-- The line starts with the marker, and behind it come this keyword and this argument. -/
def Directs (s : ScriptSettings) (line keyword argument : String) : Prop :=
  ∃ rest, trimStart line.toList = s.marker.toList ++ rest ∧
    keyword.toList = (trim rest).takeWhile (fun c => !isBlank c) ∧
    argument.toList = trim ((trim rest).dropWhile fun c => !isBlank c)

/-- A `PARALLEL` waits for its call at this place: the lines between are blank. -/
def Awaited (s : ScriptSettings) (lines : List String) (place : Nat) : Prop :=
  ∃ asked, ∃ _ : asked < place, ¬ s.Awaited lines asked ∧
    (∃ line argument, lines[asked]? = some line ∧ s.Directs line "PARALLEL" argument) ∧
    ∀ i line, asked < i → i < place → lines[i]? = some line → IsBlankLine line
termination_by place

/-- The line at this place is the call that a `PARALLEL` waits for. -/
def IsCallLine (s : ScriptSettings) (lines : List String) (place : Nat) (line : String) : Prop :=
  lines[place]? = some line ∧ s.Awaited lines place ∧ ¬ IsBlankLine line

/-- The line at this place is a directive with this keyword and argument. -/
def IsDirectiveLine (s : ScriptSettings) (lines : List String) (place : Nat)
    (line keyword argument : String) : Prop :=
  lines[place]? = some line ∧ ¬ s.Awaited lines place ∧ s.Directs line keyword argument

/-- The line at this place stands for a method call. -/
def IsReplaced (s : ScriptSettings) (lines : List String) (place : Nat) : Prop :=
  ∃ line, s.IsCallLine lines place line ∨
    ∃ keyword argument, s.IsDirectiveLine lines place line keyword argument ∧ keyword ≠ "PARALLEL"

end ScriptSettings

variable {s : ScriptSettings} {line keyword argument : String} {lines : List String}
  {outputs : List OutputLine} {lineMap : List (Option Nat)} {output : OutputLine}
  {asked? asked?' : Option Nat}
  {number place : Nat}

theorem Text.trimEnd_eq_nil_iff {cs : List Char} :
    trimEnd cs = [] ↔ ∀ c ∈ cs, isBlank c = true := by
  simp [trimEnd, List.dropWhile_eq_nil_iff]

theorem Text.isBlankLine_iff :
    (trim line.toList).isEmpty = true ↔ IsBlankLine line := by
  rw [List.isEmpty_iff, trim, trimEnd_eq_nil_iff, IsBlankLine]
  constructor
  · intro h c hc
    rw [← indentOf_append_trimStart line.toList, List.mem_append] at hc
    rcases hc with hc | hc
    · exact ScriptSettings.isBlank_of_mem_indentOf c hc
    · exact h c hc
  · exact fun h c hc => h c ((List.dropWhile_suffix _).subset hc)

theorem Directive.dropMarker?_append (marker rest : List Char) :
    dropMarker? marker (marker ++ rest) = some rest := by
  induction marker with
  | nil => rfl
  | cons m marker ih => rw [List.cons_append, dropMarker?, if_pos rfl, ih]

namespace ScriptSettings

theorem directs_iff : s.Directs line keyword argument ↔
    Directive.ofLine? s.marker.toList line.toList =
      some ⟨indentOf line.toList, keyword, argument⟩ := by
  unfold Directive.ofLine?
  rw [Option.map_eq_some_iff]
  constructor
  · rintro ⟨rest, hrest, hkeyword, hargument⟩
    refine ⟨rest, by rw [hrest, Directive.dropMarker?_append], ?_⟩
    dsimp only
    rw [← hkeyword, ← hargument, String.ofList_toList, String.ofList_toList]
  · rintro ⟨rest, hrest, hsame⟩
    obtain ⟨-, rfl, rfl⟩ := Directive.mk.inj hsame
    exact ⟨rest, (Directive.eq_append_of_dropMarker? hrest).symm, String.toList_ofList,
      String.toList_ofList⟩

theorem Directs.unique {keyword' argument' : String} (h : s.Directs line keyword argument)
    (h' : s.Directs line keyword' argument') : keyword = keyword' ∧ argument = argument' := by
  rw [directs_iff] at h h'
  rw [h] at h'
  obtain ⟨-, hkeyword, hargument⟩ := Directive.mk.inj (Option.some.inj h')
  exact ⟨hkeyword, hargument⟩

end ScriptSettings

theorem Directive.becomes_of_command {d : Directive} {name arguments : String}
    (h : d.command = .ok (.method name arguments)) :
    Becomes d.argument d.keyword name arguments := by
  rcases Directive.command_cases h with ⟨-, ⟨⟩⟩ | ⟨hd, ⟨⟩⟩ | ⟨hd, function, hfunction, ⟨⟩⟩ |
    ⟨hd, id, hid, ⟨⟩⟩ | ⟨hd, id, hid, ⟨⟩⟩ | ⟨hd, count, hcount, ⟨⟩⟩
  · rw [hd]
    exact .joinAll
  · rw [hd]
    exact .join (functionName_tokens hfunction)
  · rw [hd]
    rcases sectionId_tokens hid with ⟨n, hn, rfl⟩ | ⟨text, htext, rfl⟩
    · exact .acquire hn trivial
    · exact .acquire htext trivial
  · rw [hd]
    rcases sectionId_tokens hid with ⟨n, hn, rfl⟩ | ⟨text, htext, rfl⟩
    · exact .release hn trivial
    · exact .release htext trivial
  · rw [hd]
    obtain ⟨n, hn, hcount⟩ := workerCount_tokens hcount
    exact .resize hn hcount

namespace ScriptSettings

/-- How a line is instrumented. The options are the line of a `PARALLEL` that waits for its call,
before and after. -/
inductive LineStep (s : ScriptSettings) (number : Nat) (line : String) :
    Option Nat → OutputLine → Option Nat → Prop where
  | waits (asked : Nat) (hblank : IsBlankLine line) :
      LineStep s number line (some asked) ⟨line, .kept⟩ (some asked)
  | call (asked : Nat) {call : Call} (hblank : ¬ IsBlankLine line)
      (hcall : Call.parse (String.ofList (trim line.toList)) = .ok call) :
      LineStep s number line (some asked)
        ⟨s.methodCall (indentOf line.toList) "parallel" (quote (String.ofList (trim line.toList))),
          .call (String.ofList (trim line.toList))⟩ none
  | plain (hplain : ∀ keyword argument, ¬ s.Directs line keyword argument) :
      LineStep s number line none ⟨line, .kept⟩ none
  | asks {argument : String} (hdirects : s.Directs line "PARALLEL" argument) :
      LineStep s number line none ⟨line, .kept⟩ (some number)
  | directive {keyword argument method arguments : String}
      (hdirects : s.Directs line keyword argument) (hkeyword : keyword ≠ "PARALLEL")
      (hcall : Directive.Becomes argument keyword method arguments) :
      LineStep s number line none
        ⟨s.methodCall (indentOf line.toList) method arguments, .directive keyword⟩ none

theorem LineGoes.step (h : s.LineGoes number line asked? output asked?') :
    s.LineStep number line asked? output asked?' := by
  have hdirects {d : Directive} (hline : Directive.ofLine? s.marker.toList line.toList = some d) :
      d.indent = indentOf line.toList ∧ s.Directs line d.keyword d.argument := by
    have hindent : d.indent = indentOf line.toList := by
      obtain ⟨rest, -, rfl⟩ := Option.map_eq_some_iff.mp hline
      rfl
    exact ⟨hindent, by rw [directs_iff, hline, ← hindent]⟩
  cases h with
  | waits hblank => exact .waits _ (Text.isBlankLine_iff.mp hblank)
  | call hblank hparse => exact .call _ (mt Text.isBlankLine_iff.mpr hblank) hparse
  | plain hline =>
      refine .plain fun keyword argument hdirects => ?_
      rw [directs_iff, hline] at hdirects
      cases hdirects
  | asks hline hcommand =>
      obtain ⟨-, hdirects⟩ := hdirects hline
      rcases Directive.command_parallel hcommand with ⟨hkeyword, -⟩ | ⟨-, name, arguments, ⟨⟩⟩
      exact .asks (hkeyword ▸ hdirects)
  | directive hline hcommand =>
      obtain ⟨hindent, hdirects⟩ := hdirects hline
      rcases Directive.command_parallel hcommand with ⟨-, ⟨⟩⟩ | ⟨hkeyword, -⟩
      rw [hindent]
      exact .directive hdirects hkeyword (Directive.becomes_of_command hcommand)

theorem instrumentLines_steps (h : s.instrumentLines asked? number lines = ⟨outputs, lineMap, none⟩) :
    outputs.length = lines.length ∧ ∃ states : Nat → Option Nat, states 0 = asked? ∧
      ∀ place line, lines[place]? = some line → ∃ output, outputs[place]? = some output ∧
        s.LineStep (number + place) line (states place) output (states (place + 1)) := by
  induction lines generalizing asked? number outputs lineMap with
  | nil =>
      cases asked? with
      | none =>
          cases h
          exact ⟨rfl, fun _ => none, rfl, nofun⟩
      | some asked => cases h
  | cons first lines ih =>
      rcases instrumentLines_cons_cases h with
        ⟨e, -, -, ⟨⟩⟩ | ⟨output, asked?', outputs', lineMap', hfirst, hrest, rfl, -⟩
      obtain ⟨hlength, states, rfl, hsteps⟩ := ih hrest
      refine ⟨by simp [hlength], fun place => place.casesOn asked? states, rfl, ?_⟩
      intro place line hline
      cases place with
      | zero =>
          cases hline
          exact ⟨output, rfl, (instrumentLine_goes hfirst).step⟩
      | succ place =>
          obtain ⟨output', houtput, hstep⟩ := hsteps place line hline
          refine ⟨output', houtput, ?_⟩
          rwa [Nat.add_assoc, Nat.add_comm 1] at hstep

theorem instrumentLines_lineMap
    (h : s.instrumentLines asked? number lines = ⟨outputs, lineMap, none⟩) :
    lineMap = (List.range' number lines.length).map some := by
  induction lines generalizing asked? number outputs lineMap with
  | nil =>
      cases asked? with
      | none =>
          cases h
          rfl
      | some asked => cases h
  | cons line lines ih =>
      rcases instrumentLines_cons_cases h with
        ⟨e, -, -, ⟨⟩⟩ | ⟨output, asked?', outputs', lineMap', hfirst, hrest, -, rfl⟩
      rw [ih hrest, List.length_cons, List.range'_succ, List.map_cons]

theorem not_awaited_zero : ¬ s.Awaited lines 0 := by
  rw [Awaited]
  rintro ⟨asked, hasked, -⟩
  exact Nat.not_lt_zero asked hasked

theorem awaited_succ (hline : lines[place]? = some line) : s.Awaited lines (place + 1) ↔
    s.Awaited lines place ∧ IsBlankLine line ∨
      ¬ s.Awaited lines place ∧ ∃ argument, s.Directs line "PARALLEL" argument := by
  constructor
  · intro h
    rw [Awaited] at h
    obtain ⟨asked, hasked, hfree, hparallel, hblank⟩ := h
    rcases Nat.lt_succ_iff_lt_or_eq.mp hasked with hbefore | rfl
    · refine .inl ⟨?_, hblank place line hbefore (Nat.lt_succ_self place) hline⟩
      rw [Awaited]
      exact ⟨asked, hbefore, hfree, hparallel,
        fun i line' hi hplace => hblank i line' hi (Nat.lt_succ_of_lt hplace)⟩
    · obtain ⟨line', argument, hline', hdirects⟩ := hparallel
      rw [hline] at hline'
      cases hline'
      exact .inr ⟨hfree, argument, hdirects⟩
  · rintro (⟨hawaited, hblank⟩ | ⟨hfree, argument, hdirects⟩)
    · rw [Awaited] at hawaited
      obtain ⟨asked, hasked, hfree, hparallel, hbetween⟩ := hawaited
      rw [Awaited]
      refine ⟨asked, Nat.lt_succ_of_lt hasked, hfree, hparallel, fun i line' hi hplace hline' => ?_⟩
      rcases Nat.lt_succ_iff_lt_or_eq.mp hplace with hbefore | rfl
      · exact hbetween i line' hi hbefore hline'
      · rw [hline] at hline'
        cases hline'
        exact hblank
    · rw [Awaited]
      exact ⟨place, Nat.lt_succ_self place, hfree, ⟨line, argument, hline, hdirects⟩,
        fun i line' hi hplace => absurd hplace (by omega)⟩

theorem LineStep.isSome_iff (h : s.LineStep number line asked? output asked?') :
    asked?'.isSome = true ↔ asked?.isSome = true ∧ IsBlankLine line ∨
      ¬ asked?.isSome = true ∧ ∃ argument, s.Directs line "PARALLEL" argument := by
  cases h with
  | waits asked hblank => simp [hblank]
  | call asked hblank => simp [hblank]
  | plain hplain => simp [hplain]
  | asks hdirects => simpa using ⟨_, hdirects⟩
  | directive hdirects hkeyword =>
      have hother : ∀ argument, ¬ s.Directs line "PARALLEL" argument :=
        fun argument h => hkeyword (hdirects.unique h).1
      simp [hother]

theorem isSome_iff_awaited {states : Nat → Option Nat} (hfirst : states 0 = none)
    (hsteps : ∀ place line, lines[place]? = some line → ∃ output, outputs[place]? = some output ∧
      s.LineStep (number + place) line (states place) output (states (place + 1)))
    (hplace : place ≤ lines.length) : (states place).isSome = true ↔ s.Awaited lines place := by
  induction place with
  | zero => simp [hfirst, not_awaited_zero]
  | succ place ih =>
      have hline : lines[place]? = some lines[place] := List.getElem?_eq_getElem hplace
      obtain ⟨output, -, hstep⟩ := hsteps place _ hline
      rw [hstep.isSome_iff, awaited_succ hline, ih (Nat.le_of_succ_le hplace)]

theorem LineStep.text_eq (h : s.LineStep number line asked? output asked?')
    (hkept : output.origin.isReplaced = false) : output.text = line := by
  cases h with
  | waits | plain | asks => rfl
  | call | directive => cases hkept

theorem IsReplaced.of_line (hline : lines[place]? = some line) : s.IsReplaced lines place ↔
    s.Awaited lines place ∧ ¬ IsBlankLine line ∨ ¬ s.Awaited lines place ∧
      ∃ keyword argument, s.Directs line keyword argument ∧ keyword ≠ "PARALLEL" := by
  simp only [IsReplaced, IsCallLine, IsDirectiveLine, hline, Option.some.injEq]
  constructor
  · rintro ⟨line', ⟨rfl, hcall⟩ | ⟨keyword, argument, ⟨rfl, hfree, hdirects⟩, hkeyword⟩⟩
    · exact .inl hcall
    · exact .inr ⟨hfree, keyword, argument, hdirects, hkeyword⟩
  · rintro (hcall | ⟨hfree, keyword, argument, hdirects, hkeyword⟩)
    · exact ⟨line, .inl ⟨rfl, hcall⟩⟩
    · exact ⟨line, .inr ⟨keyword, argument, ⟨rfl, hfree, hdirects⟩, hkeyword⟩⟩

theorem LineStep.isReplaced_iff (h : s.LineStep number line asked? output asked?')
    (hline : lines[place]? = some line) (hstate : asked?.isSome = true ↔ s.Awaited lines place) :
    output.origin.isReplaced = true ↔ s.IsReplaced lines place := by
  rw [IsReplaced.of_line hline, ← hstate]
  cases h with
  | waits asked hblank => simp [LineOrigin.isReplaced, hblank]
  | call asked hblank => simp [LineOrigin.isReplaced, hblank]
  | plain hplain => simp [LineOrigin.isReplaced, hplain]
  | asks hdirects =>
      have hother : ∀ keyword argument, s.Directs line keyword argument → keyword = "PARALLEL" :=
        fun _ _ h => (h.unique hdirects).1
      simpa [LineOrigin.isReplaced] using hother
  | directive hdirects hkeyword => simpa [LineOrigin.isReplaced] using ⟨_, ⟨_, hdirects⟩, hkeyword⟩

end ScriptSettings

theorem countP_eq_ncard {α : Type} (p : α → Bool) (as : List α) :
    as.countP p = {place : Nat | ∃ a, as[place]? = some a ∧ p a = true}.ncard := by
  induction as with
  | nil => simp
  | cons a as ih =>
      generalize hlater : {place : Nat | ∃ b, as[place]? = some b ∧ p b = true} = later at ih
      have hfinite : later.Finite := by
        rw [← hlater]
        refine (Set.finite_lt_nat as.length).subset ?_
        rintro place ⟨b, hb, -⟩
        exact (List.getElem?_eq_some_iff.mp hb).1
      have hsplit : {place : Nat | ∃ b, (a :: as)[place]? = some b ∧ p b = true} =
          if p a then insert 0 (Nat.succ '' later) else Nat.succ '' later := by
        ext place
        rw [← hlater]
        cases place with
        | zero | succ =>
            by_cases ha : p a = true
            · simp [ha]
            · simp [ha]
      have hcard : (Nat.succ '' later).ncard = later.ncard :=
        Set.ncard_image_of_injective _ Nat.succ_injective
      rw [List.countP_cons, ih, hsplit]
      split
      · rw [Set.ncard_insert_of_notMem (by simp) (hfinite.image _), hcard]
      · rw [hcard, Nat.add_zero]

variable {s : ScriptSettings} {lines : List String} {script : Instrumented}

/-- What instrumenting makes of the lines of a script. -/
structure Instrumented.IsLineByLine (s : ScriptSettings) (lines : List String)
    (script : Instrumented) : Prop where
  /-- There is one line for each line of the script, behind a header. -/
  length : script.texts.length = lines.length + 1
  header : script.texts[0]? = some s.headerLine
  /-- Each line behind the header knows its line of the script. -/
  sourceLine : ∀ number, 1 ≤ number → number ≤ lines.length →
    script.sourceLine? (number + 1) = some number
  sourceLine_none : ∀ number, number < 2 ∨ lines.length + 1 < number →
    script.sourceLine? number = none
  /-- A line that stands for no method call stays as it is. -/
  kept : ∀ place line, lines[place]? = some line → ¬ s.IsReplaced lines place →
    script.texts[place + 1]? = some line
  /-- A directive other than `PARALLEL` is turned into its method call. -/
  directive : ∀ place line keyword argument,
    s.IsDirectiveLine lines place line keyword argument → keyword ≠ "PARALLEL" →
      ∃ method arguments, Directive.Becomes argument keyword method arguments ∧
        script.texts[place + 1]? = some (s.methodCall (indentOf line.toList) method arguments)
  /-- A call is handed to the coordinator as text. -/
  call : ∀ place line, s.IsCallLine lines place line →
    (∃ call, Call.parse (String.ofList (trim line.toList)) = .ok call) ∧
    script.texts[place + 1]? = some (s.methodCall (indentOf line.toList) "parallel"
      (quote (String.ofList (trim line.toList))))
  directives : script.directives = {place | s.IsReplaced lines place}.ncard
  toSource : script.toSource = String.join (script.texts.map (· ++ "\n"))

theorem Instrumented.toSource_eq_join (script : Instrumented) :
    script.toSource = String.join (script.texts.map (· ++ "\n")) := by
  apply String.toList_inj.mp
  rw [toSource, String.toList_append, String.toList_intercalate, texts, List.map_cons]
  have hbreak : "\n".toList = ['\n'] := rfl
  rw [hbreak, Text.intercalate_append_break]
  simp [String.toList_join, List.flatMap_map, Function.comp_def]

theorem Instrumented.ofLines_steps (h : Instrumented.ofLines s lines = .ok script) :
    script.header = s.headerLine ∧ script.lines.length = lines.length ∧
      ∀ place line, lines[place]? = some line → ∃ output asked? asked?',
        script.lines[place]? = some output ∧
        s.LineStep (1 + place) line asked? output asked?' ∧
        (asked?.isSome = true ↔ s.Awaited lines place) := by
  unfold ofLines at h
  split at h
  · next outputs lineMap houtputs =>
      cases h
      obtain ⟨hlength, states, hfirst, hsteps⟩ := ScriptSettings.instrumentLines_steps houtputs
      refine ⟨rfl, hlength, fun place line hline => ?_⟩
      obtain ⟨output, houtput, hstep⟩ := hsteps place line hline
      have hplace : place < lines.length := (List.getElem?_eq_some_iff.mp hline).1
      exact ⟨output, _, _, houtput, hstep,
        ScriptSettings.isSome_iff_awaited hfirst hsteps hplace.le⟩
  · cases h

theorem Instrumented.ofLines_lineMap (h : Instrumented.ofLines s lines = .ok script) :
    script.lineMap = none :: (List.range' 1 lines.length).map some := by
  unfold ofLines at h
  split at h
  · next outputs lineMap houtputs =>
      cases h
      rw [ScriptSettings.instrumentLines_lineMap houtputs]
  · cases h

theorem Instrumented.sourceLine?_eq (h : Instrumented.ofLines s lines = .ok script) (line : Nat) :
    script.sourceLine? line =
      if 2 ≤ line ∧ line ≤ lines.length + 1 then some (line - 1) else none := by
  match line with
  | 0 => rfl
  | 1 =>
      rw [sourceLine?, ofLines_lineMap h]
      rfl
  | place + 2 =>
      rw [sourceLine?, ofLines_lineMap h, List.getElem?_cons_succ, List.getElem?_map]
      by_cases hplace : place < lines.length
      · rw [List.getElem?_range' hplace, if_pos (by omega)]
        simp only [Option.map_some, Option.join_some, Option.some.injEq]
        omega
      · rw [List.getElem?_eq_none (by simpa using hplace), if_neg (by omega)]
        rfl

theorem Instrumented.isLineByLine (h : Instrumented.ofLines s lines = .ok script) :
    script.IsLineByLine s lines := by
  obtain ⟨hheader, hlength, hsteps⟩ := ofLines_steps h
  have htext {place : Nat} {output : OutputLine} (houtput : script.lines[place]? = some output) :
      script.texts[place + 1]? = some output.text := by
    rw [texts, List.getElem?_cons_succ, List.getElem?_map, houtput, Option.map_some]
  refine ⟨by simp [texts, hlength], by simp [texts, hheader], ?_, ?_, ?_, ?_, ?_, ?_,
    script.toSource_eq_join⟩
  · intro number hpos hle
    rw [sourceLine?_eq h, if_pos (by omega), Nat.add_sub_cancel]
  · intro number hout
    rw [sourceLine?_eq h, if_neg (by omega)]
  · intro place line hline hkept
    obtain ⟨output, asked?, asked?', houtput, hstep, hstate⟩ := hsteps place line hline
    rw [← hstep.isReplaced_iff hline hstate, Bool.not_eq_true] at hkept
    rw [htext houtput, hstep.text_eq hkept]
  · rintro place line keyword argument ⟨hline, hfree, hdirects⟩ hkeyword
    obtain ⟨output, asked?, asked?', houtput, hstep, hstate⟩ := hsteps place line hline
    rw [htext houtput]
    rw [← hstate] at hfree
    cases hstep with
    | waits | call => exact absurd rfl hfree
    | plain hplain => exact absurd hdirects (hplain keyword argument)
    | asks hparallel => exact absurd (hdirects.unique hparallel).1 hkeyword
    | directive hother _ hcall =>
        obtain ⟨rfl, rfl⟩ := hdirects.unique hother
        exact ⟨_, _, hcall, rfl⟩
  · rintro place line ⟨hline, hawaited, hblank⟩
    obtain ⟨output, asked?, asked?', houtput, hstep, hstate⟩ := hsteps place line hline
    rw [htext houtput]
    rw [← hstate] at hawaited
    cases hstep with
    | waits asked hisBlank => exact absurd hisBlank hblank
    | call asked _ hcall => exact ⟨⟨_, hcall⟩, rfl⟩
    | plain | asks | directive => cases hawaited
  · rw [directives, countP_eq_ncard]
    congr 1
    ext place
    constructor
    · rintro ⟨output, houtput, hreplaced⟩
      have hplace : place < lines.length := hlength ▸ (List.getElem?_eq_some_iff.mp houtput).1
      have hline : lines[place]? = some lines[place] := List.getElem?_eq_getElem hplace
      obtain ⟨output', _, _, houtput', hstep, hstate⟩ := hsteps place _ hline
      rw [houtput] at houtput'
      cases houtput'
      exact (hstep.isReplaced_iff hline hstate).mp hreplaced
    · intro hreplaced
      obtain ⟨line, hline⟩ : ∃ line, lines[place]? = some line := by
        obtain ⟨line, hcall | ⟨_, _, hdirective, -⟩⟩ := hreplaced
        · exact ⟨line, hcall.1⟩
        · exact ⟨line, hdirective.1⟩
      obtain ⟨output, _, _, houtput, hstep, hstate⟩ := hsteps place line hline
      exact ⟨output, houtput, (hstep.isReplaced_iff hline hstate).mpr hreplaced⟩

/-- Instrumenting keeps the lines of a text where they are, one place behind the header, and changes
only directives and deferred calls. The lines are the pieces of the text between line breaks of every
kind, and what a line is follows from the lines before it. -/
theorem instrumented_line_by_line {source : String}
    (h : Instrumented.ofSource s source = .ok script) : ∃ lines : List String,
      (∀ cut, Text.CutsTo source.toList cut ↔ cut = lines.map String.toList) ∧
        script.IsLineByLine s lines :=
  ⟨Instrumented.sourceLines source, fun _ => Instrumented.cutsTo_sourceLines_iff,
    Instrumented.isLineByLine h⟩

/-- Every kind of line break, a call behind a blank line and a marker of its own. -/
def mixedSource : String :=
  "@@PARALLEL -- now\r\n \r  total = sum(a)\n\t@@ JOIN 'sum'\r\nprint(total)\r\n"

/-- Three of the five lines stay, behind a header. -/
theorem instrumented_line_by_line_mixed : ∃ script,
    Instrumented.ofSource ⟨"@@", "pool", none, ""⟩ mixedSource = .ok script ∧
    script.texts = ["pool = Coordinator()", "@@PARALLEL -- now", " ",
      "  pool:parallel(\"total = sum(a)\")", "\tpool:join(\"sum\")", "print(total)"] ∧
    ∃ lines : List String,
      (∀ cut, Text.CutsTo mixedSource.toList cut ↔ cut = lines.map String.toList) ∧
        script.IsLineByLine ⟨"@@", "pool", none, ""⟩ lines := by
  have htexts : ((Instrumented.ofSource ⟨"@@", "pool", none, ""⟩ mixedSource).toOption.map
      Instrumented.texts) = some ["pool = Coordinator()", "@@PARALLEL -- now", " ",
        "  pool:parallel(\"total = sum(a)\")", "\tpool:join(\"sum\")", "print(total)"] := by
    decide +kernel
  generalize hscript : Instrumented.ofSource ⟨"@@", "pool", none, ""⟩ mixedSource = result at htexts
  cases result with
  | error e => cases htexts
  | ok script => exact ⟨script, rfl, Option.some.inj htexts, instrumented_line_by_line hscript⟩

end ScriptPool
