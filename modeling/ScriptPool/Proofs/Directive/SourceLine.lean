import ScriptPool.Proofs.Directive.OutputText

namespace ScriptPool

open ScriptPool.Text

namespace Text

/-- The pieces of a text between line breaks. An empty piece behind the last break is left out. -/
inductive CutsTo : List Char → List (List Char) → Prop where
  | nil : CutsTo [] []
  | last {line : List Char} (h : Unbroken line) (hne : line ≠ []) : CutsTo line [line]
  | feed {line rest : List Char} {lines : List (List Char)} (h : Unbroken line)
      (hrest : CutsTo rest lines) : CutsTo (line ++ '\n' :: rest) (line :: lines)
  | both {line rest : List Char} {lines : List (List Char)} (h : Unbroken line)
      (hrest : CutsTo rest lines) : CutsTo (line ++ '\r' :: '\n' :: rest) (line :: lines)
  | carriage {line rest : List Char} {lines : List (List Char)} (h : Unbroken line)
      (halone : rest.head? ≠ some '\n') (hrest : CutsTo rest lines) :
      CutsTo (line ++ '\r' :: rest) (line :: lines)

variable {cs line rest : List Char} {cut cut' : List (List Char)} {c : Char}

theorem CutsTo.cons (h : CutsTo cs cut) (hn : c ≠ '\n') (hr : c ≠ '\r') :
    ∃ cut', CutsTo (c :: cs) cut' := by
  have hcons {line : List Char} (h : Unbroken line) : Unbroken (c :: line) :=
    unbroken_cons.mpr ⟨⟨hn, hr⟩, h⟩
  cases h with
  | nil => exact ⟨_, .last (hcons (by decide)) (List.cons_ne_nil _ _)⟩
  | last h => exact ⟨_, .last (hcons h) (List.cons_ne_nil _ _)⟩
  | feed h hrest => exact ⟨_, .feed (hcons h) hrest⟩
  | both h hrest => exact ⟨_, .both (hcons h) hrest⟩
  | carriage h halone hrest => exact ⟨_, .carriage (hcons h) halone hrest⟩

theorem exists_cutsTo (cs : List Char) : ∃ cut, CutsTo cs cut := by
  have hempty : Unbroken [] := by decide
  fun_induction unifyBreaks cs with
  | case1 => exact ⟨[], .nil⟩
  | case2 rest ih =>
      obtain ⟨cut, hcut⟩ := ih
      exact ⟨_, .both hempty hcut⟩
  | case3 rest hboth ih =>
      obtain ⟨cut, hcut⟩ := ih
      refine ⟨_, .carriage hempty (fun hhead => ?_) hcut⟩
      obtain ⟨rest', rfl⟩ := List.head?_eq_some_iff.mp hhead
      exact hboth rest' rfl
  | case4 c rest hboth hreturn ih =>
      obtain ⟨cut, hcut⟩ := ih
      by_cases hfeed : c = '\n'
      · subst hfeed
        exact ⟨_, .feed hempty hcut⟩
      · exact hcut.cons hfeed hreturn

theorem unifyBreaks_append (h : Unbroken line) (rest : List Char) :
    unifyBreaks (line ++ rest) = line ++ unifyBreaks rest := by
  induction line with
  | nil => rfl
  | cons c line ih =>
      obtain ⟨⟨-, hr⟩, hline⟩ := unbroken_cons.mp h
      rw [List.cons_append, List.cons_append, ← ih hline]
      cases hrest : line ++ rest with
      | nil | cons => simp [unifyBreaks, hr]

theorem unifyBreaks_return (halone : rest.head? ≠ some '\n') :
    unifyBreaks ('\r' :: rest) = '\n' :: unifyBreaks rest := by
  cases rest with
  | nil => rfl
  | cons c rest =>
      have hc : c ≠ '\n' := by simpa using halone
      simp [unifyBreaks, hc]

theorem CutsTo.eq_lines (h : CutsTo cs cut) : cut = lines (unifyBreaks cs) := by
  have hline {line rest : List Char} (h : Unbroken line) :
      lines (line ++ '\n' :: rest) = line :: lines rest := by
    rw [lines_append h.1, dropReturn_of_unbroken h]
  induction h with
  | nil => rfl
  | @last line h hne =>
      have hsame := unifyBreaks_append h []
      rw [List.append_nil, unifyBreaks, List.append_nil] at hsame
      simp [hsame, lines, pieces_of_not_mem h.1, finishLines, hne]
  | feed h _ ih =>
      rw [unifyBreaks_append h, unifyBreaks, hline h, ih]
      · simp
      · simp
  | both h _ ih => rw [unifyBreaks_append h, unifyBreaks, hline h, ih]
  | carriage h halone _ ih =>
      rw [unifyBreaks_append h, unifyBreaks_return halone, hline h, ih]

theorem cutsTo_iff : CutsTo cs cut ↔ cut = lines (unifyBreaks cs) := by
  refine ⟨CutsTo.eq_lines, ?_⟩
  rintro rfl
  obtain ⟨cut, hcut⟩ := exists_cutsTo cs
  exact hcut.eq_lines ▸ hcut

end Text

theorem Instrumented.cutsTo_sourceLines_iff {source : String} {cut : List (List Char)} :
    Text.CutsTo source.toList cut ↔
      cut = (Instrumented.sourceLines source).map String.toList := by
  rw [Text.cutsTo_iff, sourceLines, List.map_map]
  have hsame : String.toList ∘ String.ofList = id := funext fun cs => String.toList_ofList
  rw [hsame, List.map_id]

end ScriptPool
