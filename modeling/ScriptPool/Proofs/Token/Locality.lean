import ScriptPool.Proofs.Token.Spacing

namespace ScriptPool

namespace Token

variable {c delimiter : Char} {cs rest : List Char} {ts : List Token} {e : LexError}
  {column start : Nat}

theorem readString_error_column (h : readString delimiter start column cs = .error e) :
    e.column = start ∨ column ≤ e.column ∧ e.column < column + cs.length := by
  fun_induction readString delimiter start column cs with
  | case1 =>
      cases h
      exact .inl rfl
  | case2 | case5 | case7 => cases h
  | case3 =>
      cases h
      exact .inr (by simp)
  | case4 column e' rest err hrest hc ih | case6 column c rest hc hb err hrest ih =>
      cases h
      rcases ih hrest with hstart | hcolumn
      · exact .inl hstart
      · refine .inr ?_
        simp only [List.length_cons]
        omega

theorem read_error_column (h : read column c rest = .error e) :
    column ≤ e.column ∧ e.column ≤ column + rest.length := by
  unfold read at h
  split_ifs at h with h₁ h₂ h₃ h₄ h₅ hquote hnumber hname
  · split at h
    · next err hread =>
        cases h
        rcases readString_error_column hread with hstart | hcolumn
        · omega
        · omega
    · cases h
  · dsimp only at h
    split at h
    · cases h
    · cases h
      exact ⟨Nat.le_refl _, Nat.le_add_right _ _⟩
  · cases h
    exact ⟨Nat.le_refl _, Nat.le_add_right _ _⟩

theorem readAll_error_column (h : readAll column cs = .error e) :
    column ≤ e.column ∧ e.column < column + cs.length := by
  fun_induction readAll column cs with
  | case1 | case3 | case6 => cases h
  | case2 column c rest hblank ih =>
      have hcolumn := ih h
      rw [List.length_cons]
      omega
  | case4 column c rest hblank hcomment err hread =>
      cases h
      have hcolumn := read_error_column hread
      rw [List.length_cons]
      omega
  | case5 column c rest hblank hcomment t after hread hlength err hrest ih =>
      cases h
      have hcolumn := ih hrest
      rw [List.length_cons]
      omega

end Token

theorem tokens_eq_ok_iff {line : String} {ts : List Token} :
    tokens line = .ok ts ↔ ∃ left, Token.Scans line.toList ts left :=
  ⟨Token.exists_scans, fun ⟨_, h⟩ => h.readAll_eq 1⟩

/-- A line is read up to its end or up to a comment. In the first case the tokens of whatever follows
a blank are added to its tokens, and an error behind the blank is the same as without the line, but
for its column. In both cases the line can be given a comment behind a blank. Where a line cannot be
read, the error is at one of its characters. -/
theorem tokens_local (p : String) :
    (∀ ts, tokens p = .ok ts ↔ ∃ left, Token.Scans p.toList ts left) ∧
    (∀ ts, Token.Scans p.toList ts [] → ∀ q, tokens (p ++ " " ++ q) =
      match tokens q with
      | .ok ts' => .ok (ts ++ ts')
      | .error e => .error ⟨e.column + p.length + 1, e.fault⟩) ∧
    (∀ ts, tokens p = .ok ts → ∀ c, tokens (p ++ " --" ++ c) = .ok ts) ∧
    ∀ e, tokens p = .error e → 1 ≤ e.column ∧ e.column ≤ p.length := by
  refine ⟨fun ts => tokens_eq_ok_iff, fun ts h q => ?_, fun ts h c => ?_, fun e h => ?_⟩
  · have hread := h.readAll_append Text.isBlank_space q.toList 1
    have htext : (p ++ " " ++ q).toList = p.toList ++ ' ' :: q.toList := by simp
    rw [if_pos rfl, Nat.add_assoc, Token.readAll_shift, String.length_toList, ← htext] at hread
    refine Eq.trans hread ?_
    unfold tokens
    cases Token.readAll 1 q.toList with
    | error | ok => rfl
  · have hrespaces : Token.Respaces p.toList (p.toList ++ ' ' :: '-' :: '-' :: c.toList) :=
      .comment ⟨ts, h⟩ Text.isBlank_space c.toList
    have htext : (p ++ " --" ++ c).toList = p.toList ++ ' ' :: '-' :: '-' :: c.toList := by simp
    rw [tokens, htext]
    exact hrespaces.tokens_iff.mp h
  · have hcolumn := Token.readAll_error_column h
    rw [String.length_toList] at hcolumn
    omega

/-- A call that is not finished is read up to its end; the number behind it, which is none, is found
at its own column. -/
theorem tokens_local_unfinished :
    Token.Scans "f('a',".toList [.name "f", .opening, .string "a", .comma] [] ∧
    tokens ("f('a'," ++ " " ++ "1..2") = .error ⟨8, .malformedNumber "1..2"⟩ ∧
    tokens ("f('a'," ++ " --" ++ "1..2") = .ok [.name "f", .opening, .string "a", .comma] := by
  have hname : Token.read 1 'f' "('a',".toList = .ok (.name "f", "('a',".toList) := rfl
  have hopening : Token.read 2 '(' "'a',".toList = .ok (.opening, "'a',".toList) := rfl
  have hstring : Token.read 3 '\'' "a',".toList = .ok (.string "a", ",".toList) := rfl
  have hcomma : Token.read 6 ',' [] = .ok (.comma, []) := rfl
  have hscans : Token.Scans "f('a',".toList [.name "f", .opening, .string "a", .comma] [] :=
    .token (by decide) (by decide) hname <| .token (by decide) (by decide) hopening <|
      .token (by decide) (by decide) hstring <| .token (by decide) (by decide) hcomma .done
  have hfault : tokens "1..2" = .error ⟨1, .malformedNumber "1..2"⟩ := by decide +kernel
  obtain ⟨hreads, hbehind, hcomment, -⟩ := tokens_local "f('a',"
  refine ⟨hscans, ?_, hcomment _ ((hreads _).mpr ⟨[], hscans⟩) _⟩
  rw [hbehind _ hscans, hfault]
  rfl

end ScriptPool
