import Mathlib.Tactic.TFAE
import ScriptPool.Proofs.Directive.LineByLine
import ScriptPool.Proofs.Script.CallTokens

namespace ScriptPool

open ScriptPool.Text ScriptPool.Token

variable {s : ScriptSettings} {n line argument text : String} {call : Call} {d : Directive}
  {t : Token} {script : Instrumented}

theorem tokens_name_iff : tokens n = .ok [.name n] ↔ isName n = true := by
  constructor
  · exact fun h => hasName_of_readAll h _ List.mem_cons_self
  · intro h
    have hread := spells_name h stops_nil
    rw [List.append_nil] at hread
    exact hread.ok (fun column => by rw [readAll]) 1

theorem Call.isName_function (h : Call.parse text = .ok call) : isName call.function = true := by
  obtain ⟨ts, htokens, hread⟩ := Call.parse_eq_ok_iff.mp h
  obtain ⟨-, atoms, -, rfl⟩ := Call.ofTokens_eq_ok_iff.mp hread
  exact hasName_of_readAll htokens (.name call.function) (by simp)

theorem Call.exists_parse_iff :
    (∃ call, Call.parse (n ++ "()") = .ok call ∧ call.function = n) ↔ isName n = true := by
  constructor
  · rintro ⟨call, hparse, rfl⟩
    exact Call.isName_function hparse
  · intro h
    have hstops : Stops "()".toList := by
      rintro c ⟨⟩
      decide
    have hread (column : Nat) :
        readAll column (n.toList ++ "()".toList) = .ok [.name n, .opening, .closing] :=
      (spells_name h hstops).ok
        ((readsFirst_opening _).ok ((readsFirst_closing _).ok fun column => by rw [readAll])) column
    have htokens : tokens (n ++ "()") = .ok [.name n, .opening, .closing] := by
      rw [tokens, String.toList_append, hread]
    let call : Call := ⟨String.ofList (trim (n ++ "()").toList), n, [], []⟩
    exact ⟨call, Call.parse_eq_ok_iff.mpr ⟨_, htokens,
      Call.ofTokens_eq_ok_iff.mpr ⟨rfl, [], .nil, rfl⟩⟩, rfl⟩

theorem Directive.argumentToken_eq_ok_iff :
    d.argumentToken = .ok t ↔ tokens d.argument = .ok [t] := by
  refine ⟨tokens_of_argumentToken, fun h => ?_⟩
  have hne : ¬ d.argument.isEmpty = true := by
    intro hempty
    have hnone : tokens "" = .ok [] := by rw [tokens, String.toList_empty, readAll]
    rw [String.isEmpty_iff.mp hempty, hnone] at h
    cases h
  rw [argumentToken, if_neg hne, h]

theorem Directive.functionName_eq_ok_iff : d.functionName = .ok n ↔
    (tokens d.argument = .ok [.name n] ∨ tokens d.argument = .ok [.string n]) ∧
      isName n = true := by
  constructor
  · intro h
    refine ⟨functionName_tokens h, ?_⟩
    rcases functionName_tokens h with hname | hstring
    · exact hasName_of_readAll hname _ List.mem_cons_self
    · rw [functionName, argumentToken_eq_ok_iff.mpr hstring] at h
      dsimp only at h
      split at h
      · next hn => exact hn
      · cases h
  · rintro ⟨hname | hstring, hn⟩
    · rw [functionName, argumentToken_eq_ok_iff.mpr hname]
    · rw [functionName, argumentToken_eq_ok_iff.mpr hstring]
      exact if_pos hn

/-- A script that does nothing but join the calls of a function. -/
def ScriptSettings.joining (s : ScriptSettings) (indent : List Char) (function : String) :
    Instrumented :=
  ⟨s.headerLine, [⟨s.methodCall indent "join" (quote function), .directive "JOIN"⟩],
    [none, some 1]⟩

theorem ScriptSettings.joins_iff (h : s.Directs line "JOIN" argument) :
    Instrumented.ofLines s [line] = .ok script ↔
      ∃ n, (tokens argument = .ok [.name n] ∨ tokens argument = .ok [.string n]) ∧
        isName n = true ∧ script = s.joining (indentOf line.toList) n := by
  let d : Directive := ⟨indentOf line.toList, "JOIN", argument⟩
  have hline : Directive.ofLine? s.marker.toList line.toList = some d := directs_iff.mp h
  have hcommand : d.command = d.functionName.map fun name => .method "join" (quote name) := rfl
  have hread : Instrumented.ofLines s [line] = .ok script ↔
      ∃ n, d.functionName = .ok n ∧ script = s.joining (indentOf line.toList) n := by
    unfold Instrumented.ofLines instrumentLines instrumentLine
    rw [hline]
    dsimp only
    rw [hcommand]
    cases d.functionName with
    | error fault => simp [Except.map]
    | ok name => simp [Except.map, instrumentLines, joining, d, eq_comm]
  rw [hread]
  simp only [Directive.functionName_eq_ok_iff, and_assoc]
  rfl

section Text

variable {cs : List Char} (hfirst : ∀ c ∈ cs.head?, isBlank c = false)
include hfirst

theorem Text.trimStart_eq : trimStart cs = cs := by
  cases cs with
  | nil => rfl
  | cons c cs => exact List.dropWhile_cons_of_neg (by simp [hfirst c rfl])

theorem Text.indentOf_eq : indentOf cs = [] := by
  have hsplit := indentOf_append_trimStart cs
  rwa [trimStart_eq hfirst, List.append_left_eq_self] at hsplit

theorem Text.trim_eq (hlast : ∀ c ∈ cs.getLast?, isBlank c = false) : trim (' ' :: cs) = cs := by
  have hstart : trimStart (' ' :: cs) = cs :=
    (List.dropWhile_cons_of_pos isBlank_space).trans (trimStart_eq hfirst)
  rw [List.getLast?_eq_head?_reverse] at hlast
  have hend : trimStart cs.reverse = cs.reverse := trimStart_eq hlast
  rw [trim, hstart, trimEnd]
  rw [trimStart] at hend
  rw [hend, List.reverse_reverse]

end Text

/-- A `JOIN` directive that names a function by a quoted string. -/
def ScriptSettings.joinLine (s : ScriptSettings) (n : String) : String :=
  s.marker ++ " JOIN " ++ quote n

section Marker

variable (hmarker : ∃ c ∈ s.marker.toList.head?, isBlank c = false)
include hmarker

theorem ScriptSettings.head?_joinLine (n : String) :
    ∀ c ∈ (s.joinLine n).toList.head?, isBlank c = false := by
  obtain ⟨c, hc, hblank⟩ := hmarker
  obtain ⟨cs, hcs⟩ := List.head?_eq_some_iff.mp hc
  rw [joinLine, String.toList_append, String.toList_append, hcs]
  rintro c' ⟨⟩
  exact hblank

theorem ScriptSettings.directs_joinLine (n : String) :
    s.Directs (s.joinLine n) "JOIN" (quote n) := by
  have hlast : ∀ c ∈ (quote n).toList.getLast?, isBlank c = false := by
    intro c hc
    rw [quote, String.toList_ofList, ← List.cons_append, List.getLast?_concat] at hc
    cases hc
    decide
  have htext : " JOIN ".toList ++ (quote n).toList =
      ' ' :: ("JOIN ".toList ++ (quote n).toList) := rfl
  have htrim : trim (" JOIN ".toList ++ (quote n).toList) = "JOIN ".toList ++ (quote n).toList := by
    rw [htext]
    refine Text.trim_eq (by rintro c ⟨⟩; decide) fun c hc => hlast c ?_
    rwa [List.getLast?_append_of_ne_nil _ (by simp [quote])] at hc
  refine ⟨" JOIN ".toList ++ (quote n).toList, ?_, ?_, ?_⟩
  · rw [Text.trimStart_eq (head?_joinLine hmarker n), joinLine, String.toList_append,
      String.toList_append, List.append_assoc]
  · rw [htrim]
    rfl
  · rw [htrim]
    have hword : ("JOIN ".toList ++ (quote n).toList).dropWhile (fun c => !isBlank c) =
        ' ' :: (quote n).toList := rfl
    rw [hword, Text.trim_eq _ hlast]
    rintro c hc
    rw [quote, String.toList_ofList] at hc
    cases hc
    decide

theorem ScriptSettings.joins_joinLine_iff :
    Instrumented.ofLines s [s.joinLine n] = .ok script ↔
      isName n = true ∧ script = s.joining [] n := by
  rw [ScriptSettings.joins_iff (directs_joinLine hmarker n), tokens_quote,
    Text.indentOf_eq (head?_joinLine hmarker n)]
  simp

end Marker

/-- There is one notion of a name: what is spelled like one is read as one, can be called and can
be joined. So exactly the functions that calls are deferred to can be joined, and the receiver of
accepted settings is read as one name. -/
theorem ScriptSettings.names_agree
    (hmarker : ∃ c ∈ s.marker.toList.head?, isBlank c = false) :
    (∀ n, List.TFAE [
      isName n = true,
      tokens n = .ok [.name n],
      ∃ call, Call.parse (n ++ "()") = .ok call ∧ call.function = n,
      ∃ script, Instrumented.ofLines s [s.marker ++ " JOIN " ++ quote n] = .ok script]) ∧
    (∀ text call, Call.parse text = .ok call →
      Instrumented.ofLines s [s.joinLine call.function] = .ok (s.joining [] call.function)) ∧
    (∀ line argument script, s.Directs line "JOIN" argument →
      Instrumented.ofLines s [line] = .ok script →
      ∃ n, script = s.joining (indentOf line.toList) n ∧
        ∃ call, Call.parse (n ++ "()") = .ok call ∧ call.function = n) ∧
    ∀ accepted : ScriptSettings, accepted.fault? = none →
      tokens accepted.receiver = .ok [.name accepted.receiver] := by
  refine ⟨fun n => ?_, fun text call hcall => ?_, fun line argument script hline hscript => ?_,
    fun accepted haccepted => tokens_name_iff.mpr (isName_receiver haccepted)⟩
  · have hjoins : (∃ script, Instrumented.ofLines s [s.joinLine n] = .ok script) ↔
        isName n = true := by
      simp only [joins_joinLine_iff hmarker, exists_and_left, exists_eq, and_true]
    tfae_have 2 ↔ 1 := tokens_name_iff
    tfae_have 3 ↔ 1 := Call.exists_parse_iff
    tfae_have 4 ↔ 1 := hjoins
    tfae_finish
  · exact (joins_joinLine_iff hmarker).mpr ⟨Call.isName_function hcall, rfl⟩
  · obtain ⟨n, -, hname, rfl⟩ := (joins_iff hline).mp hscript
    exact ⟨n, rfl, Call.exists_parse_iff.mpr hname⟩

/-- With the standard marker, the calls of `résumé` can be joined, and there are none of `nil`. -/
theorem ScriptSettings.names_agree_standard :
    (∃ c ∈ standard.marker.toList.head?, isBlank c = false) ∧
      (∃ script, Instrumented.ofLines standard
        [standard.marker ++ " JOIN " ++ quote "résumé"] = .ok script) ∧
      (¬ ∃ script, Instrumented.ofLines standard
        [standard.marker ++ " JOIN " ++ quote "nil"] = .ok script) ∧
      tokens standard.receiver = .ok [.name standard.receiver] := by
  have hmarker : ∃ c ∈ standard.marker.toList.head?, isBlank c = false :=
    ⟨'-', rfl, by decide⟩
  obtain ⟨hnames, -, -, hreceiver⟩ := names_agree hmarker
  refine ⟨hmarker, ((hnames "résumé").out 0 3).mp (by decide +kernel), fun hjoined => ?_,
    hreceiver standard (by decide +kernel)⟩
  have hreserved : isName "nil" = true := ((hnames "nil").out 3 0).mp hjoined
  exact absurd hreserved (by decide +kernel)

end ScriptPool
