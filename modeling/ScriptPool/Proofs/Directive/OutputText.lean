import ScriptPool.Proofs.Directive.Meaning

namespace ScriptPool

open ScriptPool.Number ScriptPool.Number.Numeral ScriptPool.Text ScriptPool.Token

namespace Text

variable {cs cs' rest : List Char}

theorem pieces_append_break (cs rest : List Char) :
    pieces (cs ++ '\n' :: rest) = pieces cs ++ pieces rest := by
  induction cs with
  | nil => simp [pieces]
  | cons c cs ih =>
      by_cases hc : c = '\n'
      · simp only [List.cons_append, pieces, if_pos hc, ih]
      · simp only [List.cons_append, pieces, if_neg hc, ih]
        cases hpieces : pieces cs with
        | nil => exact absurd hpieces (pieces_ne_nil cs)
        | cons first others => rfl

theorem length_pieces (cs : List Char) : (pieces cs).length = cs.count '\n' + 1 := by
  induction cs with
  | nil => rfl
  | cons c cs ih =>
      unfold pieces
      split
      · next hc =>
          subst hc
          rw [List.length_cons, ih, List.count_cons_self]
      · next hc =>
          rw [List.count_cons_of_ne hc]
          cases hpieces : pieces cs with
          | nil => exact absurd hpieces (pieces_ne_nil cs)
          | cons first others => rw [← ih, hpieces]; rfl

theorem finishLines_append (ps : List (List Char)) {qs : List (List Char)} (h : qs ≠ []) :
    finishLines (ps ++ qs) = ps.map dropReturn ++ finishLines qs := by
  induction ps with
  | nil => rfl
  | cons p ps ih =>
      rw [List.map_cons, List.cons_append, List.cons_append, ← ih]
      cases hrest : ps ++ qs with
      | nil => exact absurd (List.append_eq_nil_iff.mp hrest).2 h
      | cons line others => rfl

theorem lines_append_break (cs rest : List Char) :
    lines (cs ++ '\n' :: rest) = (pieces cs).map dropReturn ++ lines rest := by
  rw [lines, pieces_append_break, finishLines_append _ (pieces_ne_nil rest), lines]

theorem dropReturn_of_unbroken (h : Unbroken cs) : dropReturn cs = cs := by
  unfold dropReturn
  split
  · next hlast => exact absurd (List.mem_of_getLast? hlast) h.2
  · rfl

theorem lines_flatMap {texts : List (List Char)} (h : ∀ text ∈ texts, Unbroken text) :
    lines (texts.flatMap (· ++ ['\n'])) = texts := by
  induction texts with
  | nil => rfl
  | cons text texts ih =>
      have htext := h text List.mem_cons_self
      rw [List.flatMap_cons, List.append_assoc, List.singleton_append, lines_append htext.1,
        dropReturn_of_unbroken htext, ih fun text' hmem => h text' (List.mem_cons_of_mem _ hmem)]

theorem intercalate_append_break (text : List Char) (texts : List (List Char)) :
    ['\n'].intercalate (text :: texts) ++ ['\n'] =
      text ++ '\n' :: texts.flatMap (· ++ ['\n']) := by
  induction texts generalizing text with
  | nil => simp
  | cons text' texts ih =>
      rw [List.intercalate_cons_of_ne_nil (by simp), List.append_assoc, List.append_assoc, ih]
      simp

theorem mem_of_mem_pieces {line : List Char} (h : line ∈ pieces cs) : line ⊆ cs ∧ '\n' ∉ line := by
  induction cs generalizing line with
  | nil =>
      rw [pieces, List.mem_singleton] at h
      subst h
      exact ⟨List.nil_subset _, List.not_mem_nil⟩
  | cons c cs ih =>
      unfold pieces at h
      split at h
      · rcases List.mem_cons.mp h with rfl | hmem
        · exact ⟨List.nil_subset _, List.not_mem_nil⟩
        · exact ⟨fun d hd => List.mem_cons_of_mem _ ((ih hmem).1 hd), (ih hmem).2⟩
      · next hc =>
          split at h
          · next hpieces => exact absurd hpieces (pieces_ne_nil cs)
          · next first others hpieces =>
              rw [hpieces] at ih
              rcases List.mem_cons.mp h with rfl | hmem
              · obtain ⟨hsub, hbreak⟩ := ih List.mem_cons_self
                refine ⟨List.cons_subset_cons c hsub, ?_⟩
                rw [List.mem_cons, not_or]
                exact ⟨Ne.symm hc, hbreak⟩
              · obtain ⟨hsub, hbreak⟩ := ih (List.mem_cons_of_mem _ hmem)
                exact ⟨fun d hd => List.mem_cons_of_mem _ (hsub hd), hbreak⟩

theorem mem_finishLines {ps : List (List Char)} {line : List Char} (h : line ∈ finishLines ps) :
    ∃ piece ∈ ps, line ⊆ piece := by
  have hdrop (piece : List Char) : dropReturn piece ⊆ piece := by
    unfold dropReturn
    split
    · exact List.dropLast_subset piece
    · exact List.Subset.refl _
  fun_induction finishLines ps with
  | case1 => cases h
  | case2 last hempty => cases h
  | case3 last hempty =>
      obtain rfl := List.mem_singleton.mp h
      exact ⟨line, List.mem_cons_self, List.Subset.refl _⟩
  | case4 piece others hothers ih =>
      rcases List.mem_cons.mp h with rfl | hmem
      · exact ⟨piece, List.mem_cons_self, hdrop piece⟩
      · obtain ⟨piece', hpiece', hsub⟩ := ih hmem
        exact ⟨piece', List.mem_cons_of_mem _ hpiece', hsub⟩

theorem not_mem_unifyBreaks (cs : List Char) : '\r' ∉ unifyBreaks cs := by
  fun_induction unifyBreaks cs with
  | case1 => exact List.not_mem_nil
  | case2 rest ih => simpa using ih
  | case3 rest hrest ih => simpa using ih
  | case4 c rest hboth hreturn ih =>
      rw [List.mem_cons, not_or]
      exact ⟨fun hc => hreturn hc.symm, ih⟩

end Text

theorem Instrumented.sourceLines_unbroken {source line : String}
    (h : line ∈ Instrumented.sourceLines source) : Unbroken line.toList := by
  obtain ⟨cs, hcs, rfl⟩ := List.mem_map.mp h
  rw [String.toList_ofList]
  obtain ⟨piece, hpiece, hsub⟩ := Text.mem_finishLines hcs
  obtain ⟨hpieces, hbreak⟩ := Text.mem_of_mem_pieces hpiece
  exact ⟨fun hmem => hbreak (hsub hmem),
    fun hmem => Text.not_mem_unifyBreaks _ (hpieces (hsub hmem))⟩

theorem Directive.command_unbroken {d : Directive} {name arguments : String}
    (h : d.command = .ok (.method name arguments)) :
    Unbroken name.toList ∧ Unbroken arguments.toList := by
  have hid {id : String} (hid : d.sectionId = .ok id) : Unbroken id.toList := by
    unfold Directive.sectionId at hid
    split at hid
    · cases hid
    · cases hid
      exact displayNumber_unbroken _
    · cases hid
      exact quote_unbroken _
    · cases hid
  rcases Directive.command_cases h with ⟨-, ⟨⟩⟩ | ⟨-, ⟨⟩⟩ | ⟨-, function, -, ⟨⟩⟩ |
    ⟨-, id, hread, ⟨⟩⟩ | ⟨-, id, hread, ⟨⟩⟩ | ⟨-, count, hcount, ⟨⟩⟩
  · exact ⟨by decide, by decide⟩
  · exact ⟨by decide, quote_unbroken function⟩
  · exact ⟨by decide, hid hread⟩
  · exact ⟨by decide, hid hread⟩
  · obtain ⟨n, -, hn⟩ := Directive.workerCount_tokens hcount
    obtain ⟨m, hwrites, -⟩ := count?_writes hn
    exact ⟨by decide, writes_unbroken hwrites⟩

namespace ScriptSettings

variable {s : ScriptSettings} {asked? asked?' : Option Nat} {number : Nat} {line : String}
  {output : OutputLine}

theorem isName_receiver (h : s.fault? = none) : isName s.receiver = true := by
  unfold fault? at h
  split_ifs at h with hmarker hreceiver
  simpa using hreceiver

theorem headerLine_unbroken (hreceiver : isName s.receiver = true) (h : s.header? = none) :
    Unbroken s.headerLine.toList := by
  rw [headerLine, h, Option.getD_none, String.toList_append, Text.unbroken_append]
  exact ⟨unbroken_of_isName hreceiver, by decide⟩

theorem methodCall_unbroken {indent : List Char} {name arguments : String}
    (hreceiver : isName s.receiver = true) (hindent : Unbroken indent)
    (hname : Unbroken name.toList) (harguments : Unbroken arguments.toList) :
    Unbroken (s.methodCall indent name arguments).toList := by
  rw [methodCall_eq, String.toList_ofList, callText]
  simp [hindent, unbroken_of_isName hreceiver, hname, harguments, show Unbroken [] by decide]

theorem instrumentLine_unbroken (hreceiver : isName s.receiver = true)
    (hline : Unbroken line.toList)
    (h : s.instrumentLine asked? number line = .ok (output, asked?')) :
    Unbroken output.text.toList := by
  have hindent : Unbroken (indentOf line.toList) :=
    hline.subset (List.takeWhile_prefix _).subset
  cases instrumentLine_goes h with
  | waits | plain | asks => exact hline
  | call => exact methodCall_unbroken hreceiver hindent (by decide) (quote_unbroken _)
  | directive hd hcommand =>
      obtain ⟨rest, -, rfl⟩ := Option.map_eq_some_iff.mp hd
      obtain ⟨hname, harguments⟩ := Directive.command_unbroken hcommand
      exact methodCall_unbroken hreceiver hindent hname harguments

theorem instrumentLines_unbroken (hreceiver : isName s.receiver = true) {lines : List String}
    (hlines : ∀ line ∈ lines, Unbroken line.toList) {outputs : List OutputLine}
    {lineMap : List (Option Nat)}
    (h : s.instrumentLines asked? number lines = ⟨outputs, lineMap, none⟩) :
    ∀ output ∈ outputs, Unbroken output.text.toList := by
  induction lines generalizing asked? number outputs lineMap with
  | nil =>
      cases asked? with
      | none =>
          cases h
          exact List.forall_mem_nil _
      | some asked => cases h
  | cons line lines ih =>
      rcases instrumentLines_cons_cases h with
        ⟨e, -, -, ⟨⟩⟩ | ⟨output, asked?', outputs', lineMap', hline, hrest, rfl, rfl⟩
      rw [List.forall_mem_cons] at hlines ⊢
      exact ⟨instrumentLine_unbroken hreceiver hlines.1 hline, ih hlines.2 hrest⟩

end ScriptSettings

namespace Instrumented

variable {s : ScriptSettings} {source : String} {script : Instrumented}

theorem ofSource_unbroken (hreceiver : isName s.receiver = true)
    (h : Instrumented.ofSource s source = .ok script) :
    ∀ output ∈ script.lines, Unbroken output.text.toList := by
  unfold ofSource ofLines at h
  split at h
  · next outputs lineMap houtputs =>
      cases h
      exact ScriptSettings.instrumentLines_unbroken hreceiver
        (fun _ => sourceLines_unbroken) houtputs
  · cases h

theorem ofSource_header (h : Instrumented.ofSource s source = .ok script) :
    script.header = s.headerLine := by
  unfold ofSource ofLines at h
  split at h
  · cases h
    rfl
  · cases h

/-- The lines of the header. -/
def headerLines (script : Instrumented) : List (List Char) :=
  (pieces script.header.toList).map dropReturn

theorem lines_toSource (h : ∀ output ∈ script.lines, Unbroken output.text.toList) :
    Text.lines script.toSource.toList = script.headerLines ++ script.lines.map (·.text.toList) := by
  have htext : script.toSource.toList = script.header.toList ++
      '\n' :: (script.lines.map (·.text.toList)).flatMap (· ++ ['\n']) := by
    rw [toSource, texts, String.toList_append, String.toList_intercalate, List.map_cons,
      List.map_map]
    exact Text.intercalate_append_break _ _
  rw [htext, Text.lines_append_break, Text.lines_flatMap, headerLines]
  intro text hmem
  obtain ⟨output, houtput, rfl⟩ := List.mem_map.mp hmem
  exact h output houtput

end Instrumented

end ScriptPool
