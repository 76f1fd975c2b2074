import Mathlib.Tactic.SplitIfs
import ScriptPool.Proofs.Value.NumberText
import ScriptPool.Token.Lexer

namespace ScriptPool

open ScriptPool.Number ScriptPool.Number.Numeral ScriptPool.Text

/-- The blank characters. -/
def blankCodes : List Nat :=
  [0x9, 0xa, 0xb, 0xc, 0xd, 0x20, 0x85, 0xa0, 0x1680, 0x2000, 0x2001, 0x2002, 0x2003, 0x2004, 0x2005,
    0x2006, 0x2007, 0x2008, 0x2009, 0x200a, 0x2028, 0x2029, 0x202f, 0x205f, 0x3000]

theorem mem_blankCodes {c : Char} (h : isBlank c = true) : c.toNat ∈ blankCodes := by
  simp only [isBlank, Ranges.contains, blankRanges, List.any_cons, List.any_nil, Bool.or_false,
    Bool.or_eq_true, Bool.and_eq_true, decide_eq_true_eq] at h
  simp only [blankCodes, List.mem_cons, List.not_mem_nil, or_false]
  omega

theorem isBlank_of_continuesName {c : Char} (h : continuesName c = true) : isBlank c = false := by
  by_contra hblank
  have hcodes : ∀ code ∈ blankCodes, continuesName (Char.ofNat code) = false := by decide +kernel
  have hc := hcodes c.toNat (mem_blankCodes (by simpa using hblank))
  rw [Char.ofNat_toNat, h] at hc
  cases hc

theorem isBlank_of_startsName {c : Char} (h : startsName c = true) : isBlank c = false :=
  isBlank_of_continuesName (continuesName_of_startsName h)

theorem isDigit_iff {c : Char} : isDigit c = true ↔ 48 ≤ c.toNat ∧ c.toNat ≤ 57 := by
  simp only [isDigit, Bool.and_eq_true, decide_eq_true_eq, Char.le_def]
  exact Iff.rfl

theorem isDigit_word {c : Char} (h : isDigit c = true) :
    startsName c = false ∧ continuesName c = true := by
  have hcodes : ∀ code < 58, 48 ≤ code →
      startsName (Char.ofNat code) = false ∧ continuesName (Char.ofNat code) = true := by decide
  obtain ⟨hlower, hupper⟩ := isDigit_iff.mp h
  have hc := hcodes c.toNat (by omega) hlower
  rwa [Char.ofNat_toNat] at hc

theorem isDigit_of_startsName {c : Char} (h : startsName c = true) : isDigit c = false := by
  by_contra hdigit
  rw [(isDigit_word (by simpa using hdigit)).1] at h
  cases h

namespace Token

/-- A word and a number end before the text. -/
def Stops (rest : List Char) : Prop :=
  ∀ c ∈ rest.head?, continuesName c = false ∧ c ≠ '.'

/-- The token is read first, and then what can be read from the text after it. -/
def ReadsFirst (cs : List Char) (t : Token) (rest : List Char) : Prop :=
  ∀ column, ∃ column', readAll column cs = (readAll column' rest).map (t :: ·)

/-- The text is read as the token before anything that ends a word and a number. -/
def Spells (text : List Char) (t : Token) : Prop :=
  ∀ {rest : List Char}, Stops rest → ReadsFirst (text ++ rest) t rest

variable {c : Char} {cs rest : List Char} {t : Token} {ts : List Token}

theorem ReadsFirst.ok (h : ReadsFirst cs t rest) (hrest : ∀ column, readAll column rest = .ok ts)
    (column : Nat) : readAll column cs = .ok (t :: ts) := by
  obtain ⟨column', hread⟩ := h column
  rw [hread, hrest]
  rfl

theorem readsFirst_of_read (hblank : isBlank c = false)
    (hcomment : ¬ (c = '-' ∧ (cs ++ rest).head? = some '-'))
    (hread : ∀ column, read column c (cs ++ rest) = .ok (t, rest)) :
    ReadsFirst (c :: cs ++ rest) t rest := by
  intro column
  rw [List.cons_append, readAll, if_neg (by simp [hblank]), if_neg hcomment]
  split
  · next hfail =>
      rw [hread column] at hfail
      cases hfail
  · next t' after hok =>
      rw [hread column] at hok
      cases hok
      refine ⟨column + 1 + ((cs ++ rest).length - rest.length), ?_⟩
      dsimp only
      split
      · next hfail =>
          rw [hfail]
          rfl
      · next hrest =>
          rw [hrest]
          rfl

theorem forall_mem_of_readAll {p : Token → Prop}
    (hp : ∀ {column c rest t after}, read column c rest = .ok (t, after) → p t) {column : Nat}
    (h : readAll column cs = .ok ts) : ∀ t ∈ ts, p t := by
  fun_induction readAll column cs generalizing ts with
  | case1 | case3 =>
      cases h
      exact List.forall_mem_nil _
  | case2 column c rest hblank ih => exact ih h
  | case4 | case5 => cases h
  | case6 column c rest hblank hcomment t after hread _ ts' hrest ih =>
      cases h
      exact List.forall_mem_cons.mpr ⟨hp hread, ih hrest⟩

theorem readAll_blanks {blanks : List Char} (h : ∀ c ∈ blanks, isBlank c = true)
    (rest : List Char) (column : Nat) :
    ∃ column', readAll column (blanks ++ rest) = readAll column' rest := by
  induction blanks generalizing column with
  | nil => exact ⟨column, rfl⟩
  | cons c blanks ih =>
      rw [List.cons_append, readAll, if_pos (h c List.mem_cons_self)]
      exact ih (fun c hc => h c (List.mem_cons_of_mem _ hc)) (column + 1)

theorem span_of_stop {p : Char → Bool} (hcs : ∀ c ∈ cs, p c = true)
    (hrest : ∀ c ∈ rest.head?, p c = false) :
    (cs ++ rest).takeWhile p = cs ∧ (cs ++ rest).dropWhile p = rest := by
  rw [List.takeWhile_append_of_pos hcs, List.dropWhile_append_of_pos hcs]
  cases rest with
  | nil => simp
  | cons c rest => simp [hrest c rfl]

theorem readsFirst_mark (hblank : isBlank c = false) (hminus : c ≠ '-')
    (hread : ∀ column, read column c rest = .ok (t, rest)) : ReadsFirst (c :: rest) t rest :=
  have hempty : ReadsFirst ([c] ++ rest) t rest :=
    readsFirst_of_read hblank (fun h => hminus h.1) hread
  hempty

theorem readsFirst_opening (rest : List Char) : ReadsFirst ('(' :: rest) .opening rest :=
  readsFirst_mark (by decide) (by decide) fun _ => rfl

theorem readsFirst_closing (rest : List Char) : ReadsFirst (')' :: rest) .closing rest :=
  readsFirst_mark (by decide) (by decide) fun _ => rfl

theorem readsFirst_colon (rest : List Char) : ReadsFirst (':' :: rest) .colon rest :=
  readsFirst_mark (by decide) (by decide) fun _ => rfl

theorem isName_cons {s : String} (h : isName s = true) : ∃ c cs, s.toList = c :: cs ∧
    startsName c = true ∧ (∀ c ∈ cs, continuesName c = true) ∧ reservedWords.contains s = false := by
  unfold isName at h
  split at h
  · cases h
  · next c cs hlist =>
      simp only [Bool.and_eq_true, List.all_eq_true, Bool.not_eq_true'] at h
      exact ⟨c, cs, hlist, h.1.1, h.1.2, h.2⟩

theorem ofWord_of_not_reserved {s : String} (h : reservedWords.contains s = false) :
    ofWord s = .name s := by
  simp only [reservedWords, List.contains_cons, List.contains_nil, Bool.or_false,
    Bool.or_eq_false_iff, beq_eq_false_iff_ne] at h
  rw [ofWord, if_neg h.1, if_neg h.2.1, if_neg h.2.2]

theorem read_word (hstart : startsName c = true)
    (hcontinue : ∀ c ∈ cs, continuesName c = true) (hstops : Stops rest) (column : Nat) :
    read column c (cs ++ rest) = .ok (ofWord (String.ofList (c :: cs)), rest) := by
  have hne (d : Char) (hd : startsName d = false) : c ≠ d := by
    rintro rfl
    rw [hstart] at hd
    cases hd
  have hdigit := isDigit_of_startsName hstart
  have hnumber : startsNumber c (cs ++ rest).head? = false := by
    simp [startsNumber, hdigit, hne '-' (by decide), hne '.' (by decide)]
  obtain ⟨htake, hdrop⟩ := span_of_stop hcontinue fun c hc => (hstops c hc).1
  unfold read
  rw [if_neg (hne '(' (by decide)), if_neg (hne ')' (by decide)), if_neg (hne ',' (by decide)),
    if_neg (hne '=' (by decide)), if_neg (hne ':' (by decide)),
    if_neg (not_or.mpr ⟨hne '"' (by decide), hne '\'' (by decide)⟩), hnumber, if_neg (by decide),
    if_pos hstart, htake, hdrop]

theorem spells_word {word : String} (h : word.toList = c :: cs) (hstart : startsName c = true)
    (hcontinue : ∀ c ∈ cs, continuesName c = true) : Spells word.toList (ofWord word) := by
  have hword : String.ofList (c :: cs) = word := by rw [← h, String.ofList_toList]
  intro rest hstops
  rw [h]
  apply readsFirst_of_read (isBlank_of_startsName hstart)
  · rintro ⟨rfl, -⟩
    cases hstart
  · intro column
    rw [read_word hstart hcontinue hstops, hword]

theorem spells_name {s : String} (h : isName s = true) : Spells s.toList (.name s) := by
  obtain ⟨c, cs, hlist, hstart, hcontinue, hreserved⟩ := isName_cons h
  rw [← ofWord_of_not_reserved hreserved]
  exact spells_word hlist hstart hcontinue

theorem readString_escapeChar {text after : List Char} {start : Nat} (c : Char)
    (h : ∀ column, readString '"' start column rest = .ok (text, after)) (column : Nat) :
    readString '"' start column (escapeChar c ++ rest) = .ok (c :: text, after) := by
  unfold escapeChar
  split_ifs with h₁ h₂ h₃ h₄ h₅
  all_goals
    simp only [List.cons_append, List.nil_append]
    rw [readString.eq_def]
  · simp [h₁, h, unescape]
  · simp [h₂, h, unescape]
  · simp [h₃, h, unescape]
  · simp [h₄, h, unescape]
  · simp [h₅, h, unescape]
  · simp [h₁, h₂, h]

theorem readString_quoted (text rest : List Char) (start column : Nat) :
    readString '"' start column (text.flatMap escapeChar ++ '"' :: rest) = .ok (text, rest) := by
  induction text generalizing column with
  | nil =>
      rw [List.flatMap_nil, List.nil_append, readString.eq_def]
      rfl
  | cons c text ih =>
      rw [List.flatMap_cons, List.append_assoc]
      exact readString_escapeChar c ih column

theorem spells_quote (text : String) : Spells (quote text).toList (.string text) := by
  intro rest _
  rw [quote, String.toList_ofList]
  apply readsFirst_of_read (by decide) fun h => absurd h.1 (by decide)
  intro column
  have hread := readString_quoted text.toList rest column (column + 1)
  rw [List.append_assoc, List.singleton_append]
  unfold read
  simp [hread]

theorem spanExponent_of_stops (hstops : Stops rest) : spanExponent rest = ([], rest) := by
  cases rest with
  | nil => rfl
  | cons c rest =>
      have hne (d : Char) (hd : continuesName d = true) : c ≠ d := by
        rintro rfl
        rw [(hstops c rfl).1] at hd
        cases hd
      simp [spanExponent, takeOne, hne 'e' (by decide), hne 'E' (by decide)]

theorem isMantissaChar_of_stops (hstops : Stops rest) :
    ∀ c ∈ rest.head?, isMantissaChar c = false := by
  intro c hc
  obtain ⟨hcontinue, hpoint⟩ := hstops c hc
  have hdigit : ¬ isDigit c = true := fun hdigit => by simp [(isDigit_word hdigit).2] at hcontinue
  simp [isMantissaChar, hdigit, hpoint]

theorem spanNumber_withSign {body : List Char} {digits : Nat} {exponent : Int} (negative : Bool)
    (hbody : Unsigned body digits exponent) (hstops : Stops rest) :
    spanNumber ((withSign negative body).toList ++ rest) =
      ((withSign negative body).toList, rest) := by
  have hmantissa : ∀ c ∈ body, isMantissaChar c = true := fun c hc => by
    rcases hbody.chars c hc with h | h
    · simp [isMantissaChar, h]
    · simp [isMantissaChar, h]
  obtain ⟨htake, hdrop⟩ := span_of_stop hmantissa (isMantissaChar_of_stops hstops)
  have hsign : takeOne (· = '-') ((withSign negative body).toList ++ rest) =
      (if negative then ['-'] else [], body ++ rest) := by
    obtain ⟨c, more, rfl, hc⟩ := hbody.starts
    cases negative with
    | true => simp [withSign, takeOne]
    | false =>
        have hminus : c ≠ '-' := by
          rintro rfl
          cases hc
        simp [withSign, takeOne, hminus]
  unfold spanNumber
  dsimp only
  rw [hsign]
  dsimp only
  rw [htake, hdrop, spanExponent_of_stops hstops]
  cases negative with
  | false | true => simp [withSign]

theorem read_number {numeral : Numeral} (hc : c = '-' ∨ isDigit c = true)
    (hstarts : startsNumber c (cs ++ rest).head? = true)
    (hspan : spanNumber (c :: cs ++ rest) = (c :: cs, rest))
    (hread : Numeral.read (c :: cs) = some numeral) (column : Nat) :
    read column c (cs ++ rest) = .ok (.number numeral.toDouble, rest) := by
  have hne (d : Char) (hminus : d ≠ '-') (hd : isDigit d = false) : c ≠ d := by
    rintro rfl
    simp [hminus, hd] at hc
  unfold read
  rw [if_neg (hne '(' (by decide) (by decide)), if_neg (hne ')' (by decide) (by decide)),
    if_neg (hne ',' (by decide) (by decide)), if_neg (hne '=' (by decide) (by decide)),
    if_neg (hne ':' (by decide) (by decide)),
    if_neg (not_or.mpr ⟨hne '"' (by decide) (by decide), hne '\'' (by decide) (by decide)⟩),
    if_pos hstarts, ← List.cons_append, hspan]
  dsimp only
  rw [hread]

theorem isBlank_of_isDigit {d : Char} (h : isDigit d = true) : isBlank d = false :=
  isBlank_of_continuesName (isDigit_word h).2

theorem spells_number {text : String} {n : Double} (h : Writes text n) :
    Spells text.toList (.number n) := by
  obtain ⟨negative, body, digits, exponent, rfl, hbody, rfl⟩ := h
  intro rest hstops
  have hspan := spanNumber_withSign negative hbody hstops
  have hread := read_withSign negative hbody
  obtain ⟨d, more, rfl, hdigit⟩ := hbody.starts
  have hminus : d ≠ '-' := by
    rintro rfl
    cases hdigit
  cases negative with
  | true =>
      have htext : (withSign true (d :: more)).toList = '-' :: d :: more := String.toList_ofList
      rw [htext] at hread hspan ⊢
      apply readsFirst_of_read (by decide)
      · rintro ⟨-, hhead⟩
        rw [List.cons_append, List.head?_cons, Option.some.injEq] at hhead
        exact hminus hhead
      · exact read_number (.inl rfl) (by simp [startsNumber, isMantissaChar, hdigit]) hspan hread
  | false =>
      have htext : (withSign false (d :: more)).toList = d :: more := String.toList_ofList
      rw [htext] at hread hspan ⊢
      apply readsFirst_of_read (isBlank_of_isDigit hdigit)
      · rintro ⟨hd, -⟩
        exact hminus hd
      · exact read_number (.inr hdigit) (by simp [startsNumber, hdigit]) hspan hread

theorem readAll_minus_inf {rest : List Char} (column : Nat) :
    ∃ e, readAll column ("-inf".toList ++ rest) = .error e := by
  refine ⟨⟨column, .unexpected '-'⟩, ?_⟩
  rw [show "-inf".toList ++ rest = '-' :: 'i' :: 'n' :: 'f' :: rest from rfl, readAll,
    if_neg (by decide), if_neg (by simp)]
  rfl

end Token

end ScriptPool
