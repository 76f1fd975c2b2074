import ScriptPool.Proofs.Token.Spacing
import ScriptPool.Text.Line

namespace ScriptPool.Token

open ScriptPool.Number ScriptPool.Text

theorem readString_of_append_return {delimiter : Char} {start column : Nat}
    {cs text after : List Char} (hdelimiter : delimiter ≠ '\r')
    (h : readString delimiter start column (cs ++ ['\r']) = .ok (text, after)) :
    ∃ after₀, after = after₀ ++ ['\r'] ∧
      readString delimiter start column cs = .ok (text, after₀) := by
  fun_induction readString delimiter start column cs generalizing text after with
  | case1 column => simp [readString, Ne.symm hdelimiter] at h
  | case2 column rest =>
      rw [List.cons_append, readString.eq_def] at h
      simp only [if_true] at h
      cases h
      exact ⟨rest, rfl, rfl⟩
  | case3 column hc => simp [readString, hc] at h
  | case4 column e rest err hrest hc ih =>
      rw [List.cons_append, List.cons_append, readString, if_neg hc, if_pos rfl] at h
      split at h
      · cases h
      · next text' after' hread =>
          obtain ⟨after₀, -, hread₀⟩ := ih hread
          rw [hrest] at hread₀
          cases hread₀
  | case5 column e rest text₀ rest₀ hrest hc ih =>
      rw [List.cons_append, List.cons_append, readString, if_neg hc, if_pos rfl] at h
      split at h
      · cases h
      · next text' after' hread =>
          cases h
          obtain ⟨after₀, rfl, hread₀⟩ := ih hread
          rw [hrest] at hread₀
          cases hread₀
          exact ⟨_, rfl, rfl⟩
  | case6 column c rest hc hb err hrest ih =>
      rw [List.cons_append, readString.eq_def] at h
      simp only [if_neg hc, if_neg hb] at h
      split at h
      · cases h
      · next text' after' hread =>
          obtain ⟨after₀, -, hread₀⟩ := ih hread
          rw [hrest] at hread₀
          cases hread₀
  | case7 column c rest hc hb text₀ rest₀ hrest ih =>
      rw [List.cons_append, readString.eq_def] at h
      simp only [if_neg hc, if_neg hb] at h
      split at h
      · cases h
      · next text' after' hread =>
          cases h
          obtain ⟨after₀, rfl, hread₀⟩ := ih hread
          rw [hrest] at hread₀
          cases hread₀
          exact ⟨_, rfl, rfl⟩

/-- The same token is found at the start of two texts, and what is left of the first one ends in a
carriage return that the second one does not have. -/
def LeavesReturn (found found' : Except LexError (Token × List Char)) : Prop :=
  ∀ t after, found = .ok (t, after) → ∃ after₀, after = after₀ ++ ['\r'] ∧ found' = .ok (t, after₀)

theorem read_append_return {column : Nat} {c : Char} (hblank : ¬ isBlank c = true)
    (cs : List Char) : LeavesReturn (read column c (cs ++ ['\r'])) (read column c cs) := by
  have hreturn : isBlank '\r' = true := by decide
  have hdelimiter : c ≠ '\r' := by
    rintro rfl
    exact hblank hreturn
  have hmark (mark : Token) : LeavesReturn (.ok (mark, cs ++ ['\r'])) (.ok (mark, cs)) := by
    rintro t after ⟨⟩
    exact ⟨cs, rfl, rfl⟩
  unfold read
  rw [startsNumber_append_blank hreturn, ← List.cons_append, spanNumber_append_blank hreturn,
    takeWhile_append_stop (by decide), dropWhile_append_stop (by decide)]
  refine ite_related (hmark _) <| ite_related (hmark _) <| ite_related (hmark _) <|
    ite_related (hmark _) <| ite_related (hmark _) <| ite_related ?_ <| ite_related ?_ <|
      ite_related ?_ ?_
  · intro t after h
    split at h
    · cases h
    · next text after' hread =>
        cases h
        obtain ⟨after₀, rfl, hread₀⟩ := readString_of_append_return hdelimiter hread
        exact ⟨after₀, rfl, by rw [hread₀]⟩
  · intro t after h
    dsimp only at h ⊢
    split at h
    · cases h
      exact ⟨_, rfl, rfl⟩
    · cases h
  · rintro t after ⟨⟩
    exact ⟨_, rfl, rfl⟩
  · rintro t after ⟨⟩

theorem readAll_cons_append_return {column : Nat} {c : Char} {rest : List Char} {ts : List Token}
    (hblank : ¬ isBlank c = true) (hcomment : ¬ (c = '-' ∧ rest.head? = some '-'))
    (h : readAll column (c :: rest ++ ['\r']) = .ok ts) :
    ∃ t after ts', read column c rest = .ok (t, after) ∧ ts = t :: ts' ∧
      readAll (column + 1 + (rest.length - after.length)) (after ++ ['\r']) = .ok ts' := by
  have hcomment' : ¬ (c = '-' ∧ (rest ++ ['\r']).head? = some '-') := by
    rwa [head?_append_blank (by decide)]
  rw [List.cons_append, readAll, if_neg hblank, if_neg hcomment'] at h
  split at h
  · cases h
  · next t after hread =>
      obtain ⟨after₀, rfl, hread₀⟩ := read_append_return hblank rest t after hread
      dsimp only at h
      split at h
      · cases h
      · next ts' hrest =>
          cases h
          refine ⟨t, after₀, ts', hread₀, rfl, ?_⟩
          rw [← hrest]
          congr 1
          simp

theorem readAll_of_append_return {column : Nat} {cs : List Char} {ts : List Token}
    (h : readAll column (cs ++ ['\r']) = .ok ts) : readAll column cs = .ok ts := by
  fun_induction readAll column cs generalizing ts with
  | case1 column =>
      have hblank : isBlank '\r' = true := by decide
      rw [List.nil_append, readAll, if_pos hblank, readAll] at h
      exact h
  | case2 column c rest hblank ih =>
      rw [List.cons_append, readAll, if_pos hblank] at h
      exact ih h
  | case3 column c rest hblank hcomment =>
      have hcomment' : c = '-' ∧ (rest ++ ['\r']).head? = some '-' := by
        refine ⟨hcomment.1, ?_⟩
        rw [List.head?_append, hcomment.2]
        rfl
      rw [List.cons_append, readAll, if_neg hblank, if_pos hcomment'] at h
      exact h
  | case4 column c rest hblank hcomment err hread =>
      obtain ⟨t, after, ts', hread', -⟩ := readAll_cons_append_return hblank hcomment h
      rw [hread] at hread'
      cases hread'
  | case5 column c rest hblank hcomment t after hread _ err hrest ih =>
      obtain ⟨t', after', ts', hread', rfl, hrest'⟩ :=
        readAll_cons_append_return hblank hcomment h
      rw [hread] at hread'
      cases hread'
      rw [ih hrest'] at hrest
      cases hrest
  | case6 column c rest hblank hcomment t after hread _ ts₀ hrest ih =>
      obtain ⟨t', after', ts', hread', rfl, hrest'⟩ :=
        readAll_cons_append_return hblank hcomment h
      rw [hread] at hread'
      cases hread'
      rw [ih hrest'] at hrest
      cases hrest
      rfl

theorem readAll_dropReturn {column : Nat} {cs : List Char} {ts : List Token}
    (h : readAll column cs = .ok ts) : readAll column (dropReturn cs) = .ok ts := by
  unfold dropReturn
  split
  · next hlast =>
      obtain ⟨cs₀, rfl⟩ := List.getLast?_eq_some_iff.mp hlast
      rw [List.dropLast_concat]
      exact readAll_of_append_return h
  · exact h

end ScriptPool.Token
