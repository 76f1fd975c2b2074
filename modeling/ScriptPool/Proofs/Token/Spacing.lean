import ScriptPool.Proofs.Token.Spelling

namespace ScriptPool

/-- The same fault so many columns further on. -/
def LexError.shift (e : LexError) (offset : Nat) : LexError :=
  { e with column := e.column + offset }

namespace Token

open ScriptPool.Number ScriptPool.Text

variable {b c : Char} {cs rest after left more : List Char} {t : Token} {ts : List Token}
  {column : Nat}

/-- What is neither blank nor the start of a comment starts a token, and the text behind the token is
read on its own. -/
theorem readAll_token (hblank : ¬ isBlank c = true)
    (hcomment : ¬ (c = '-' ∧ rest.head? = some '-')) (column : Nat) :
    readAll column (c :: rest) = (read column c rest).bind fun found =>
      (readAll (column + 1 + (rest.length - found.2.length)) found.2).map (found.1 :: ·) := by
  rw [readAll, if_neg hblank, if_neg hcomment]
  split
  · next e hread =>
      rw [hread]
      rfl
  · next t after hread =>
      dsimp only
      rw [hread]
      dsimp only [Except.bind]
      cases readAll (column + 1 + (rest.length - after.length)) after with
      | error | ok => rfl

theorem mapError_eq_ok_iff {ε ε' α : Type} {f : ε → ε'} {found : Except ε α} {a : α} :
    found.mapError f = .ok a ↔ found = .ok a := by
  cases found with
  | error | ok => simp [Except.mapError]

theorem readString_shift (delimiter : Char) (start column offset : Nat) (cs : List Char) :
    readString delimiter (start + offset) (column + offset) cs =
      (readString delimiter start column cs).mapError (·.shift offset) := by
  fun_induction readString delimiter start column cs with
  | case1 column =>
      rw [readString]
      rfl
  | case2 column rest =>
      rw [readString.eq_def]
      exact if_pos rfl
  | case3 column hc =>
      rw [readString, if_neg hc, if_pos rfl]
      rfl
  | case4 column e rest err hrest hc ih | case5 column e rest text after hrest hc ih =>
      rw [hrest, Nat.add_right_comm] at ih
      rw [readString, if_neg hc, if_pos rfl, ih]
      rfl
  | case6 column c rest hc hb err hrest ih | case7 column c rest hc hb text after hrest ih =>
      rw [hrest, Nat.add_right_comm] at ih
      rw [readString.eq_def]
      simp only [if_neg hc, if_neg hb, ih]
      rfl

theorem read_shift (column offset : Nat) (c : Char) (rest : List Char) :
    read (column + offset) c rest = (read column c rest).mapError (·.shift offset) := by
  unfold read
  simp only [apply_ite (Except.mapError fun e : LexError => e.shift offset),
    Nat.add_right_comm column offset 1, readString_shift]
  cases readString c column (column + 1) rest with
  | error | ok =>
      cases Numeral.read (spanNumber (c :: rest)).1 with
      | none | some => rfl

theorem readAll_shift (column offset : Nat) (cs : List Char) :
    readAll (column + offset) cs = (readAll column cs).mapError (·.shift offset) := by
  fun_induction readAll column cs with
  | case1 column =>
      rw [readAll]
      rfl
  | case2 column c rest hblank ih => rw [readAll, if_pos hblank, Nat.add_right_comm, ih]
  | case3 column c rest hblank hcomment =>
      rw [readAll, if_neg hblank, if_pos hcomment]
      rfl
  | case4 column c rest hblank hcomment e hread =>
      rw [readAll_token hblank hcomment, read_shift, hread]
      rfl
  | case5 column c rest hblank hcomment t after hread _ e hrest ih
  | case6 column c rest hblank hcomment t after hread _ ts hrest ih =>
      rw [hrest] at ih
      rw [readAll_token hblank hcomment, read_shift, hread, Nat.add_right_comm column]
      dsimp only [Except.mapError, Except.bind]
      rw [Nat.add_right_comm, ih]
      rfl

theorem read_column {found : Token × List Char} (h : read column c cs = .ok found)
    (column' : Nat) : read column' c cs = .ok found := by
  rw [← Nat.zero_add column, read_shift, mapError_eq_ok_iff] at h
  rw [← Nat.zero_add column', read_shift, h]
  rfl

theorem readAll_column (h : readAll column cs = .ok ts) (column' : Nat) :
    readAll column' cs = .ok ts := by
  rw [← Nat.zero_add column, readAll_shift, mapError_eq_ok_iff] at h
  rw [← Nat.zero_add column', readAll_shift, h]
  rfl

theorem eq_false_of_isBlank {p : Char → Bool}
    (hp : ∀ code ∈ blankCodes, p (Char.ofNat code) = false) (hb : isBlank b = true) :
    p b = false := by
  have hcode := hp b.toNat (mem_blankCodes hb)
  rwa [Char.ofNat_toNat] at hcode

section Cut

variable {p : Char → Bool} (hp : p b = false) (more : List Char)
include hp

theorem takeWhile_append_stop (cs : List Char) :
    (cs ++ b :: more).takeWhile p = cs.takeWhile p := by
  induction cs with
  | nil => simp [hp]
  | cons c cs ih =>
      rw [List.cons_append, List.takeWhile_cons, List.takeWhile_cons, ih]

theorem dropWhile_append_stop (cs : List Char) :
    (cs ++ b :: more).dropWhile p = cs.dropWhile p ++ b :: more := by
  induction cs with
  | nil => simp [hp]
  | cons c cs ih =>
      rw [List.cons_append, List.dropWhile_cons, List.dropWhile_cons, ih]
      split
      · rfl
      · rfl

theorem takeOne_append_stop (cs : List Char) :
    takeOne p (cs ++ b :: more) = ((takeOne p cs).1, (takeOne p cs).2 ++ b :: more) := by
  cases cs with
  | nil => simp [takeOne, hp]
  | cons c cs =>
      simp only [List.cons_append, takeOne]
      split
      · rfl
      · rfl

end Cut

section Blank

variable (hb : isBlank b = true) (more : List Char)
include hb

theorem spanExponent_append_blank (cs : List Char) :
    spanExponent (cs ++ b :: more) = ((spanExponent cs).1, (spanExponent cs).2 ++ b :: more) := by
  have hletter : (decide (b = 'e') || decide (b = 'E')) = false :=
    eq_false_of_isBlank (p := fun c => c = 'e' || c = 'E') (by decide) hb
  have hsign : (decide (b = '+') || decide (b = '-')) = false :=
    eq_false_of_isBlank (p := fun c => c = '+' || c = '-') (by decide) hb
  have hdigit : isDigit b = false := eq_false_of_isBlank (by decide) hb
  unfold spanExponent
  rw [takeOne_append_stop (p := fun c => c = 'e' || c = 'E') hletter]
  dsimp only
  split
  · rfl
  · rw [takeOne_append_stop (p := fun c => c = '+' || c = '-') hsign]
    simp only [takeWhile_append_stop hdigit, dropWhile_append_stop hdigit]

theorem spanNumber_append_blank (cs : List Char) :
    spanNumber (cs ++ b :: more) = ((spanNumber cs).1, (spanNumber cs).2 ++ b :: more) := by
  have hminus : decide (b = '-') = false := eq_false_of_isBlank (p := (· = '-')) (by decide) hb
  have hmantissa : isMantissaChar b = false := eq_false_of_isBlank (by decide) hb
  unfold spanNumber
  rw [takeOne_append_stop (p := (· = '-')) hminus]
  simp only [takeWhile_append_stop hmantissa, dropWhile_append_stop hmantissa,
    spanExponent_append_blank hb]

theorem startsNumber_append_blank (c : Char) (cs : List Char) :
    startsNumber c (cs ++ b :: more).head? = startsNumber c cs.head? := by
  have hdigit : isDigit b = false := eq_false_of_isBlank (by decide) hb
  have hmantissa : isMantissaChar b = false := eq_false_of_isBlank (by decide) hb
  cases cs with
  | nil => simp [startsNumber, hmantissa, hdigit]
  | cons c' cs => rfl

theorem head?_append_blank (cs : List Char) :
    (cs ++ b :: more).head? = some '-' ↔ cs.head? = some '-' := by
  cases cs with
  | nil =>
      refine iff_of_false ?_ (by simp)
      rintro ⟨⟩
      cases hb
  | cons c cs => rfl

end Blank

theorem readString_append {delimiter : Char} {start : Nat} {text after : List Char}
    (h : readString delimiter start column cs = .ok (text, after)) (more : List Char) :
    readString delimiter start column (cs ++ more) = .ok (text, after ++ more) := by
  fun_induction readString delimiter start column cs generalizing text after with
  | case1 | case3 | case4 | case6 => cases h
  | case2 column rest =>
      cases h
      rw [List.cons_append, readString.eq_def]
      exact if_pos rfl
  | case5 column e rest text₀ rest₀ hrest hc ih =>
      cases h
      rw [List.cons_append, List.cons_append, readString, if_neg hc, if_pos rfl, ih hrest]
  | case7 column c rest hc hb text₀ rest₀ hrest ih =>
      cases h
      rw [List.cons_append, readString.eq_def]
      simp only [if_neg hc, if_neg hb, ih hrest]

theorem ite_related {α : Type} {R : α → α → Prop} {p : Prop} [Decidable p] {a a' d d' : α}
    (h : R a a') (h' : R d d') : R (if p then a else d) (if p then a' else d') := by
  split
  · exact h
  · exact h'

/-- The token that is found before a text is found, too, when more stands behind the text. -/
def Carries (more : List Char) (found found' : Except LexError (Token × List Char)) : Prop :=
  ∀ t after, found = .ok (t, after) → found' = .ok (t, after ++ more)

theorem read_append_blank (hb : isBlank b = true) (more : List Char) :
    Carries (b :: more) (read column c cs) (read column c (cs ++ b :: more)) := by
  have hcontinue : continuesName b = false := by
    by_contra hcontinue
    rw [isBlank_of_continuesName (by simpa using hcontinue)] at hb
    cases hb
  have hmark (mark : Token) : Carries (b :: more) (.ok (mark, cs)) (.ok (mark, cs ++ b :: more)) := by
    rintro t after ⟨⟩
    rfl
  unfold read
  rw [startsNumber_append_blank hb, ← List.cons_append, spanNumber_append_blank hb,
    takeWhile_append_stop hcontinue, dropWhile_append_stop hcontinue]
  refine ite_related (hmark _) <| ite_related (hmark _) <| ite_related (hmark _) <|
    ite_related (hmark _) <| ite_related (hmark _) <| ite_related ?_ <| ite_related ?_ <|
      ite_related ?_ ?_
  · intro t after h
    split at h
    · cases h
    · next text after' hread =>
        cases h
        rw [readString_append hread]
  · intro t after h
    dsimp only at h ⊢
    split at h
    · cases h
      rfl
    · cases h
  · rintro t after ⟨⟩
    rfl
  · rintro t after ⟨⟩

/-- The tokens of a text, and what is left where reading stops: nothing, or a comment. -/
inductive Scans : List Char → List Token → List Char → Prop where
  | done : Scans [] [] []
  | comment (text : List Char) : Scans ('-' :: '-' :: text) [] ('-' :: '-' :: text)
  | blank {c : Char} {cs left : List Char} {ts : List Token} (hblank : isBlank c = true)
      (h : Scans cs ts left) : Scans (c :: cs) ts left
  | token {column : Nat} {c : Char} {rest after left : List Char} {t : Token} {ts : List Token}
      (hblank : ¬ isBlank c = true) (hcomment : ¬ (c = '-' ∧ rest.head? = some '-'))
      (hread : read column c rest = .ok (t, after)) (h : Scans after ts left) :
      Scans (c :: rest) (t :: ts) left

theorem Scans.readAll_eq (h : Scans cs ts left) (column : Nat) : readAll column cs = .ok ts := by
  induction h generalizing column with
  | done => rw [readAll]
  | comment text => rw [readAll, if_neg (by decide), if_pos ⟨rfl, rfl⟩]
  | blank hblank _ ih => rw [readAll, if_pos hblank, ih]
  | token hblank hcomment hread _ ih =>
      rw [readAll_token hblank hcomment, read_column hread]
      dsimp only [Except.bind]
      rw [ih]
      rfl

theorem exists_scans (h : readAll column cs = .ok ts) : ∃ left, Scans cs ts left := by
  fun_induction readAll column cs generalizing ts with
  | case1 =>
      cases h
      exact ⟨[], .done⟩
  | case2 column c rest hblank ih =>
      obtain ⟨left, hscans⟩ := ih h
      exact ⟨left, .blank hblank hscans⟩
  | case3 column c rest hblank hcomment =>
      cases h
      obtain ⟨rfl, hhead⟩ := hcomment
      obtain ⟨text, rfl⟩ := List.head?_eq_some_iff.mp hhead
      exact ⟨_, .comment text⟩
  | case4 | case5 => cases h
  | case6 column c rest hblank hcomment t after hread _ ts' hrest ih =>
      cases h
      obtain ⟨left, hscans⟩ := ih hrest
      exact ⟨left, .token hblank hcomment hread hscans⟩

/-- A blank behind a text ends its last token. What follows is read on its own, or it belongs to the
comment that the text ends in. -/
theorem Scans.readAll_append (h : Scans cs ts left) (hb : isBlank b = true) (more : List Char)
    (column : Nat) : readAll column (cs ++ b :: more) =
      if left = [] then (readAll (column + cs.length + 1) more).map (ts ++ ·) else .ok ts := by
  induction h generalizing column with
  | done =>
      rw [List.nil_append, readAll, if_pos hb, if_pos rfl]
      cases readAll (column + 1) more with
      | error | ok => rfl
  | comment text =>
      rw [if_neg (List.cons_ne_nil _ _), List.cons_append, List.cons_append, readAll,
        if_neg (by decide), if_pos ⟨rfl, rfl⟩]
  | @blank c cs left ts hblank _ ih =>
      rw [List.cons_append, readAll, if_pos hblank, ih, List.length_cons, Nat.add_right_comm column 1,
        ← Nat.add_assoc]
  | @token column₀ c rest after left t ts hblank hcomment hread _ ih =>
      have hcomment' : ¬ (c = '-' ∧ (rest ++ b :: more).head? = some '-') := by
        rwa [head?_append_blank hb]
      have hlength := length_read hread
      rw [List.cons_append, readAll_token hblank hcomment',
        read_append_blank hb more t after (read_column hread column)]
      dsimp only [Except.bind]
      rw [List.length_append, List.length_append, Nat.add_sub_add_right, ih, List.length_cons,
        show column + 1 + (rest.length - after.length) + after.length = column + (rest.length + 1) by
          omega]
      split
      · cases readAll (column + (rest.length + 1) + 1) more with
        | error | ok => rfl
      · rfl

/-- The second text differs from the first one in blanks in front or behind or between two tokens,
or in a comment behind a blank. Between two tokens means behind a part that can be read by itself. -/
inductive Respaces : List Char → List Char → Prop where
  | before {blanks : List Char} (cs : List Char) (h : ∀ c ∈ blanks, isBlank c = true) :
      Respaces cs (blanks ++ cs)
  | between {cs blanks blanks' : List Char} (hcs : ∃ ts, readAll 1 cs = .ok ts)
      (h : ∀ c ∈ blanks, isBlank c = true) (h' : ∀ c ∈ blanks', isBlank c = true)
      (hne : blanks ≠ []) (hne' : blanks' ≠ []) (more : List Char) :
      Respaces (cs ++ (blanks ++ more)) (cs ++ (blanks' ++ more))
  | after {cs blanks : List Char} (hcs : ∃ ts, readAll 1 cs = .ok ts)
      (h : ∀ c ∈ blanks, isBlank c = true) : Respaces cs (cs ++ blanks)
  | comment {cs : List Char} {b : Char} (hcs : ∃ ts, readAll 1 cs = .ok ts)
      (hb : isBlank b = true) (text : List Char) : Respaces cs (cs ++ b :: '-' :: '-' :: text)

theorem readAll_blanks_iff {blanks : List Char} (h : ∀ c ∈ blanks, isBlank c = true)
    (more : List Char) (column column' : Nat) :
    readAll column (blanks ++ more) = .ok ts ↔ readAll column' more = .ok ts := by
  obtain ⟨column₁, hread⟩ := readAll_blanks h more column
  rw [hread]
  exact ⟨fun h => readAll_column h _, fun h => readAll_column h _⟩

theorem readAll_append_empty (hcs : readAll column cs = .ok ts) (hb : isBlank b = true)
    (hmore : ∀ column, readAll column more = .ok []) :
    readAll column (cs ++ b :: more) = .ok ts := by
  obtain ⟨left, hscans⟩ := exists_scans hcs
  rw [hscans.readAll_append hb, hmore]
  simp [Except.map]

theorem Respaces.tokens_iff {cs' : List Char} (h : Respaces cs cs') :
    readAll 1 cs = .ok ts ↔ readAll 1 cs' = .ok ts := by
  cases h with
  | before _ h => exact (readAll_blanks_iff h cs 1 1).symm
  | @between cs blanks blanks' hcs h h' hne hne' more =>
      obtain ⟨ts', hcs⟩ := hcs
      obtain ⟨b, blanks, rfl⟩ := List.exists_cons_of_ne_nil hne
      obtain ⟨b', blanks', rfl⟩ := List.exists_cons_of_ne_nil hne'
      rw [List.forall_mem_cons] at h h'
      obtain ⟨left, hscans⟩ := exists_scans hcs
      have hmap (found : Except LexError (List Token)) :
          found.map (ts' ++ ·) = .ok ts ↔ ∃ ts₀, found = .ok ts₀ ∧ ts' ++ ts₀ = ts := by
        cases found with
        | error | ok => simp [Except.map]
      rw [List.cons_append, List.cons_append, hscans.readAll_append h.1, hscans.readAll_append h'.1]
      split
      · simp only [hmap, readAll_blanks_iff h.2 more _ 1, readAll_blanks_iff h'.2 more _ 1]
      · exact Iff.rfl
  | @after cs blanks hcs h =>
      obtain ⟨ts', hcs⟩ := hcs
      cases blanks with
      | nil => rw [List.append_nil]
      | cons b blanks =>
          rw [List.forall_mem_cons] at h
          have hempty (column : Nat) : readAll column blanks = .ok [] := by
            rw [← List.append_nil blanks, readAll_blanks_iff h.2 [] column column, readAll]
          rw [readAll_append_empty hcs h.1 hempty, hcs]
  | comment hcs hb text =>
      obtain ⟨ts', hcs⟩ := hcs
      have hempty (column : Nat) : readAll column ('-' :: '-' :: text) = .ok [] := by
        rw [readAll, if_neg (by decide), if_pos ⟨rfl, rfl⟩]
      rw [readAll_append_empty hcs hb hempty, hcs]

end Token

end ScriptPool
