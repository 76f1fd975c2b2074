import ScriptPool.Proofs.Text.Unbroken
import ScriptPool.Proofs.Token.Spacing

namespace ScriptPool

open ScriptPool.Number ScriptPool.Text

namespace Token

/-- A token that is a number is finite. -/
def HasFiniteNumber : Token → Prop
  | .number n => ∃ negative size, n = .finite negative size
  | _ => True

instance : DecidablePred HasFiniteNumber
  | .number (.finite negative size) => .isTrue ⟨negative, size, rfl⟩
  | .number .nan | .number (.infinite _) => .isFalse nofun
  | .name _ | .string _ | .nil | .boolean _ | .opening | .closing | .comma | .equals | .colon =>
    .isTrue trivial

/-- A token that is a word can stand for a name. -/
def HasName : Token → Prop
  | .name s => isName s = true
  | _ => True

/-- The tokens one after another, with a blank after each. -/
def lineOf (ts : List Token) : List Char :=
  ts.flatMap fun t => t.display.toList ++ [' ']

/-- The tokens one after another, with a blank between any two. -/
def written (ts : List Token) : String :=
  " ".intercalate (ts.map display)

variable {column : Nat} {c : Char} {cs rest after : List Char} {t t' : Token} {ts ts' : List Token}

theorem ofWord_hasName {word : String} (h : word.toList = c :: cs) (hstart : startsName c = true)
    (hcontinue : ∀ c ∈ cs, continuesName c = true) : (ofWord word).HasName := by
  unfold ofWord
  split_ifs with hnil htrue hfalse
  · trivial
  · trivial
  · trivial
  · simpa [HasName, isName, h, hstart, reservedWords, hnil, htrue, hfalse] using hcontinue

theorem hasName_of_read (h : read column c rest = .ok (t, after)) : t.HasName := by
  unfold read at h
  split_ifs at h with h₁ h₂ h₃ h₄ h₅ hquote hnumber hname
  · cases h
    trivial
  · cases h
    trivial
  · cases h
    trivial
  · cases h
    trivial
  · cases h
    trivial
  · split at h
    · cases h
    · cases h
      trivial
  · dsimp only at h
    split at h
    · cases h
      trivial
    · cases h
  · cases h
    exact ofWord_hasName String.toList_ofList hname fun _ => List.mem_takeWhile_imp

theorem hasName_of_readAll (h : readAll column cs = .ok ts) : ∀ t ∈ ts, t.HasName :=
  forall_mem_of_readAll hasName_of_read h

theorem agrees_self (h : t ≠ .number .nan) : t.agrees t = true := by
  cases t with
  | number n =>
      have hne : n ≠ .nan := fun heq => h (by rw [heq])
      exact Double.equal_self_iff.mpr hne
  | name | string | nil | boolean | opening | closing | comma | equals | colon =>
      simp [agrees]

theorem eq_of_agrees (h : t.agrees t' = true) (hnumber : ∀ n, t ≠ .number n) : t' = t := by
  cases t with
  | number n => exact absurd rfl (hnumber n)
  | name | string | nil | boolean | opening | closing | comma | equals | colon =>
      simpa [agrees, eq_comm] using h

theorem stops_nil : Stops [] :=
  nofun

theorem stops_blank (rest : List Char) : Stops (' ' :: rest) := by
  rintro c ⟨⟩
  decide

theorem spells_mark (hblank : isBlank c = false) (hminus : c ≠ '-')
    (hread : ∀ column rest, read column c rest = .ok (t, rest)) : Spells [c] t :=
  fun {rest} _ => readsFirst_mark hblank hminus fun column => hread column rest

theorem exists_spells (hname : t.HasName) (hnumber : t.HasFiniteNumber) :
    ∃ t', t.agrees t' = true ∧ Spells t.display.toList t' := by
  have hself (hne : ∀ n, t ≠ .number n) (h : Spells t.display.toList t) :
      ∃ t', t.agrees t' = true ∧ Spells t.display.toList t' :=
    ⟨t, agrees_self (hne _), h⟩
  cases t with
  | name s => exact hself nofun (spells_name hname)
  | number n =>
      obtain ⟨negative, x, rfl⟩ := hnumber
      obtain ⟨n, hwrites, hequal, -⟩ := displayNumber_writes negative x
      exact ⟨.number n, (Double.equal_comm _ _).trans hequal, spells_number hwrites⟩
  | string s => exact hself nofun (spells_quote s)
  | nil => exact hself nofun (spells_word (c := 'n') rfl (by decide) (List.all_eq_true.mp (by decide)))
  | boolean b =>
      cases b with
      | true => exact hself nofun (spells_word (c := 't') rfl (by decide) (List.all_eq_true.mp (by decide)))
      | false => exact hself nofun (spells_word (c := 'f') rfl (by decide) (List.all_eq_true.mp (by decide)))
  | opening => exact hself nofun (spells_mark (by decide) (by decide) fun _ _ => rfl)
  | closing => exact hself nofun (spells_mark (by decide) (by decide) fun _ _ => rfl)
  | comma => exact hself nofun (spells_mark (by decide) (by decide) fun _ _ => rfl)
  | equals => exact hself nofun (spells_mark (by decide) (by decide) fun _ _ => rfl)
  | colon => exact hself nofun (spells_mark (by decide) (by decide) fun _ _ => rfl)

theorem display_unbroken (h : t.HasName) : Unbroken t.display.toList := by
  cases t with
  | name s => exact unbroken_of_isName h
  | number n => exact displayNumber_unbroken n
  | string s => exact quote_unbroken s
  | boolean b =>
      cases b with
      | false | true => decide
  | nil | opening | closing | comma | equals | colon => decide

/-- The text is read as these tokens, numbers being compared by value. -/
def ReadsBack (cs : List Char) (ts : List Token) : Prop :=
  ∃ ts', readAll 1 cs = .ok ts' ∧ List.Forall₂ (fun t t' => t.agrees t' = true) ts ts'

theorem readsBack_nil : ReadsBack [] [] :=
  ⟨[], by rw [readAll], .nil⟩

theorem readsBack_blank : ReadsBack (' ' :: cs) ts ↔ ReadsBack cs ts := by
  unfold ReadsBack
  rw [readAll, if_pos isBlank_space]
  constructor
  · rintro ⟨ts', hread, hagree⟩
    exact ⟨ts', readAll_column hread _, hagree⟩
  · rintro ⟨ts', hread, hagree⟩
    exact ⟨ts', readAll_column hread _, hagree⟩

theorem readsBack_of_readsFirst (h : ReadsFirst cs t' rest) :
    ReadsBack cs (t :: ts) ↔ t.agrees t' = true ∧ ReadsBack rest ts := by
  constructor
  · rintro ⟨ts', hread, hagree⟩
    obtain ⟨column, hfirst⟩ := h 1
    rw [hfirst] at hread
    cases hrest : readAll column rest with
    | error e =>
        rw [hrest] at hread
        cases hread
    | ok ts₀ =>
        rw [hrest] at hread
        cases hread
        rw [List.forall₂_cons] at hagree
        exact ⟨hagree.1, ts₀, readAll_column hrest 1, hagree.2⟩
  · rintro ⟨hagrees, ts', hread, hagree⟩
    exact ⟨t' :: ts', h.ok (readAll_column hread) 1, .cons hagrees hagree⟩

/-- A token is read back exactly if it is no number without a numeral: not-a-number and the positive
infinite number have the text of a name, and that of the negative one cannot be read. -/
theorem readsBack_display (hname : t.HasName) (hstops : Stops rest) :
    ReadsBack (t.display.toList ++ rest) (t :: ts) ↔ t.HasFiniteNumber ∧ ReadsBack rest ts := by
  have hother {n : Double} (hname : isName (Token.number n).display = true)
      (hn : ¬ (Token.number n).HasFiniteNumber) :
      ReadsBack ((Token.number n).display.toList ++ rest) (.number n :: ts) ↔
        (Token.number n).HasFiniteNumber ∧ ReadsBack rest ts := by
    rw [readsBack_of_readsFirst (spells_name hname hstops)]
    exact iff_of_false (fun h => Bool.false_ne_true h.1) fun h => hn h.1
  by_cases hfinite : t.HasFiniteNumber
  · obtain ⟨t', hagrees, hspells⟩ := exists_spells hname hfinite
    rw [readsBack_of_readsFirst (hspells hstops)]
    simp only [hagrees, hfinite]
  · cases t with
    | number n =>
        cases n with
        | nan => exact hother (by decide) hfinite
        | infinite negative =>
            cases negative with
            | false => exact hother (by decide) hfinite
            | true =>
                refine iff_of_false ?_ fun h => hfinite h.1
                rintro ⟨ts', hread, -⟩
                have htext : (Token.number (.infinite true)).display = "-inf" := rfl
                obtain ⟨e, he⟩ : ∃ e, readAll 1 ("-inf".toList ++ rest) = .error e :=
                  readAll_minus_inf 1
                rw [htext, he] at hread
                cases hread
        | finite negative x => exact absurd ⟨negative, x, rfl⟩ hfinite
    | name | string | nil | boolean | opening | closing | comma | equals | colon =>
        exact absurd trivial hfinite

theorem written_cons (t : Token) (h : ts ≠ []) :
    (written (t :: ts)).toList = t.display.toList ++ ' ' :: (written ts).toList := by
  obtain ⟨t', ts, rfl⟩ := List.exists_cons_of_ne_nil h
  simp [written, String.toList_intercalate]

theorem written_unbroken (h : ∀ t ∈ ts, t.HasName) : Unbroken (written ts).toList := by
  induction ts with
  | nil => decide
  | cons t ts ih =>
      rw [List.forall_mem_cons] at h
      by_cases hts : ts = []
      · rw [hts]
        exact display_unbroken h.1
      · rw [written_cons t hts, Text.unbroken_append, Text.unbroken_cons]
        exact ⟨display_unbroken h.1, by decide, ih h.2⟩

/-- The tokens of a line are read back, each as one that stands for the same thing, exactly if all
their numbers are finite. -/
theorem readsBack_written (hname : ∀ t ∈ ts, t.HasName) :
    ReadsBack (written ts).toList ts ↔ ∀ t ∈ ts, t.HasFiniteNumber := by
  induction ts with
  | nil => exact iff_of_true readsBack_nil (List.forall_mem_nil _)
  | cons t ts ih =>
      rw [List.forall_mem_cons] at hname
      rw [List.forall_mem_cons, ← ih hname.2]
      by_cases hts : ts = []
      · have hread : ReadsBack (t.display.toList ++ []) [t] ↔ _ :=
          readsBack_display hname.1 stops_nil
        rw [List.append_nil] at hread
        rw [hts]
        exact hread
      · rw [written_cons t hts, readsBack_display hname.1 (stops_blank _), readsBack_blank]

theorem lineOf_cons (t : Token) (ts : List Token) :
    lineOf (t :: ts) = t.display.toList ++ ' ' :: lineOf ts := by
  simp [lineOf]

theorem lineOf_eq (h : ts ≠ []) : lineOf ts = (written ts).toList ++ [' '] := by
  induction ts with
  | nil => exact absurd rfl h
  | cons t ts ih =>
      by_cases hts : ts = []
      · simp [hts, lineOf, written]
      · rw [written_cons t hts, List.append_assoc, List.cons_append, ← ih hts, lineOf_cons]

theorem lineOf_unbroken (h : ∀ t ∈ ts, t.HasName) : Unbroken (lineOf ts) := by
  by_cases hts : ts = []
  · rw [hts]
    decide
  · rw [lineOf_eq hts, Text.unbroken_append]
    exact ⟨written_unbroken h, by decide⟩

theorem readAll_lineOf (hname : ∀ t ∈ ts, t.HasName) (hnumber : ∀ t ∈ ts, t.HasFiniteNumber) :
    ∃ ts', List.Forall₂ (fun t t' => t.agrees t' = true) ts ts' ∧
      ∀ column, readAll column (lineOf ts) = .ok ts' := by
  obtain ⟨ts', hread, hagree⟩ := (readsBack_written hname).mpr hnumber
  refine ⟨ts', hagree, fun column => ?_⟩
  by_cases hts : ts = []
  · rw [hts] at hread ⊢
    exact readAll_column hread column
  · rw [lineOf_eq hts]
    exact readAll_append_empty (readAll_column hread column) isBlank_space fun column => by rw [readAll]

end Token

theorem tokens_quote (s : String) : tokens (quote s) = .ok [.string s] := by
  have hread := Token.spells_quote s Token.stops_nil
  rw [List.append_nil] at hread
  exact hread.ok (fun column => by rw [Token.readAll]) 1

/-- Writing the tokens of a line undoes the reading, as far as there are numerals for its numbers: the
written tokens stay on one line and are read back as equal ones exactly if all numbers are finite. A
string by itself is always read back as it was. -/
theorem written_tokens_read_back :
    (∀ line ts, tokens line = .ok ts → Unbroken (Token.written ts).toList ∧
      ((∃ ts', tokens (Token.written ts) = .ok ts' ∧
          List.Forall₂ (fun t t' => t.agrees t' = true) ts ts') ↔
        ∀ t ∈ ts, t.HasFiniteNumber)) ∧
    ∀ s, tokens (quote s) = .ok [.string s] ∧ Unbroken (quote s).toList := by
  refine ⟨fun line ts h => ?_, fun s => ⟨tokens_quote s, quote_unbroken s⟩⟩
  have hname := Token.hasName_of_readAll h
  exact ⟨Token.written_unbroken hname, Token.readsBack_written hname⟩

/-- A quotation mark is escaped, and the sign of a zero is not kept. -/
theorem written_tokens_read_back_zero : ∃ ts,
    tokens "f('\"',-0) -- none" = .ok ts ∧ Token.written ts = "f ( \"\\\"\" , 0 )" ∧
    (∀ t ∈ ts, t.HasFiniteNumber) ∧ ∃ ts', tokens (Token.written ts) = .ok ts' ∧
      List.Forall₂ (fun t t' => t.agrees t' = true) ts ts' := by
  have hread : tokens "f('\"',-0) -- none" =
      .ok [.name "f", .opening, .string "\"", .comma, .number (.finite true .zero), .closing] := by
    decide +kernel
  have hfinite : ∀ t ∈ [.name "f", .opening, .string "\"", .comma,
      .number (.finite true .zero), Token.closing], t.HasFiniteNumber := by decide
  exact ⟨_, hread, by decide +kernel, hfinite,
    ((written_tokens_read_back.1 _ _ hread).2.mpr hfinite)⟩

end ScriptPool
