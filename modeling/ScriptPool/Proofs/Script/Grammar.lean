import ScriptPool.Script.Statement

namespace ScriptPool

mutual

/-- The tokens that an expression is derived from. -/
inductive Expr.Derives : Expr → List Token → Prop where
  | literal {t : Token} {value : Value} (h : t.literal? = some value) : Derives (.literal value) [t]
  | global (n : String) : Derives (.global n) [.name n]
  | call (f : String) {arguments : List Expr} {ts : List Token} (h : Expr.Arguments arguments ts) :
      Derives (.call f arguments) (.name f :: ts)
  | method (n m : String) {arguments : List Expr} {ts : List Token}
      (h : Expr.Arguments arguments ts) :
      Derives (.method n m arguments) (.name n :: .colon :: .name m :: ts)

/-- The tokens of arguments in parentheses, of which there may be none. -/
inductive Expr.Arguments : List Expr → List Token → Prop where
  | none : Arguments [] [.opening, .closing]
  | some {exprs : List Expr} {ts : List Token} (h : Expr.Commas exprs ts) :
      Arguments exprs (.opening :: ts ++ [.closing])

/-- The tokens of expressions with commas between them, at least one. -/
inductive Expr.Commas : List Expr → List Token → Prop where
  | last {expr : Expr} {ts : List Token} (h : expr.Derives ts) : Commas [expr] ts
  | cons {expr : Expr} {exprs : List Expr} {ts ts' : List Token} (h : expr.Derives ts)
      (hrest : Expr.Commas exprs ts') : Commas (expr :: exprs) (ts ++ .comma :: ts')

end

namespace Statement

/-- The tokens of names with commas between them, at least one. -/
inductive Names : List String → List Token → Prop where
  | last (n : String) : Names [n] [.name n]
  | cons (n : String) {names : List String} {ts : List Token} (h : Names names ts) :
      Names (n :: names) (.name n :: .comma :: ts)

/-- Whether a line starts with the word that declares names. -/
def StartsLocal (ts : List Token) : Prop :=
  ts.head? = some (.name "local")

/-- The tokens that a statement is derived from. An assignment that declares nothing starts with
names that are allowed there. -/
inductive Derives (allowed : List Token → Prop) : Statement → List Token → Prop where
  | assign {targets : List String} {values : List Expr} {names ts : List Token}
      (hallowed : allowed names) (hnames : Names targets names) (hvalues : Expr.Commas values ts) :
      Derives allowed (.assign targets values) (names ++ .equals :: ts)
  | declareAssign {targets : List String} {values : List Expr} {names ts : List Token}
      (hnames : Names targets names) (hvalues : Expr.Commas values ts) :
      Derives allowed (.assign targets values) (.name "local" :: names ++ .equals :: ts)
  | declare {targets : List String} {names : List Token} (hnames : Names targets names) :
      Derives allowed (.assign targets []) (.name "local" :: names)
  | call {expr : Expr} {ts : List Token} (h : expr.Derives ts) (hcall : expr.isCall = true)
      (hequals : .equals ∉ ts) (hlocal : ¬ StartsLocal ts) : Derives allowed (.call expr) ts

/-- The tokens of a statement of the language: the word that declares names always does so at the
start of a line. -/
abbrev Reads (statement : Statement) (ts : List Token) : Prop :=
  statement.Derives (fun names => ¬ StartsLocal names) ts

end Statement

variable {ts rest used used' : List Token} {expr : Expr} {exprs : List Expr} {names : List String}
  {statement : Statement} {bound : Nat} {t : Token}

theorem expectToken_eq_ok {wanted : Token} :
    expectToken wanted ts = .ok rest ↔ ts = wanted :: rest := by
  cases ts with
  | nil => simp [expectToken]
  | cons t more =>
      by_cases h : t = wanted
      · simp [expectToken, h]
      · simp [expectToken, h]

namespace Expr

mutual

theorem derives_of_read : (bound : Nat) → {ts rest : List Token} → {expr : Expr} →
    read bound ts = .ok (expr, rest) → ∃ used, ts = used ++ rest ∧ expr.Derives used
  | 0, _, _, _, h => by simp [read] at h
  | bound + 1, ts, rest, expr, h => by
      cases ts with
      | nil => simp [read] at h
      | cons t more =>
          simp only [read] at h
          split at h
          · next value hvalue =>
              cases h
              exact ⟨[_], rfl, .literal hvalue⟩
          · next n hliteral =>
              split at h
              · split at h
                · cases h
                  next after hargs =>
                    obtain ⟨used, hused, hderives⟩ := arguments_of_read bound hargs
                    exact ⟨.name n :: used, by rw [hused]; rfl, .call n hderives⟩
                · cases h
              · split at h
                · cases h
                  next hargs =>
                    obtain ⟨used, hused, hderives⟩ := arguments_of_read bound hargs
                    exact ⟨_ :: _ :: _ :: used, by rw [hused]; rfl, .method _ _ hderives⟩
                · cases h
              · cases h
                exact ⟨[.name n], rfl, .global n⟩
          · cases h

theorem arguments_of_read : (bound : Nat) → {ts rest : List Token} → {exprs : List Expr} →
    readArguments bound ts = .ok (exprs, rest) → ∃ used, ts = used ++ rest ∧ Arguments exprs used
  | 0, _, _, _, h => by simp [readArguments] at h
  | bound + 1, ts, rest, exprs, h => by
      simp only [readArguments] at h
      split at h
      · cases h
      · next hopening =>
          cases h
          rw [expectToken_eq_ok] at hopening
          exact ⟨[.opening, .closing], hopening, .none⟩
      · next inner _ hopening =>
          rw [expectToken_eq_ok] at hopening
          split at h
          · cases h
          · next hlist =>
              split at h
              · cases h
                next hclosing =>
                  rw [expectToken_eq_ok] at hclosing
                  obtain ⟨used, hused, hderives⟩ := commas_of_read bound hlist
                  refine ⟨.opening :: used ++ [.closing], ?_, .some hderives⟩
                  rw [hopening, hused, hclosing]
                  simp
              · cases h

theorem commas_of_read : (bound : Nat) → {ts rest : List Token} → {exprs : List Expr} →
    readList bound ts = .ok (exprs, rest) → ∃ used, ts = used ++ rest ∧ Commas exprs used
  | 0, _, _, _, h => by simp [readList] at h
  | bound + 1, ts, rest, exprs, h => by
      simp only [readList] at h
      split at h
      · cases h
      · next hfirst =>
          obtain ⟨used, hused, hderives⟩ := derives_of_read bound hfirst
          split at h
          · cases h
            next hmore =>
              obtain ⟨used', hused', hderives'⟩ := commas_of_read bound hmore
              refine ⟨used ++ .comma :: used', ?_, .cons hderives hderives'⟩
              rw [hused, hused']
              simp
          · cases h
      · next hfirst =>
          cases h
          obtain ⟨used, hused, hderives⟩ := derives_of_read bound hfirst
          exact ⟨used, hused, .last hderives⟩

end

end Expr

/-- An expression is over before these tokens. -/
def Token.EndsExpr (rest : List Token) : Prop :=
  ∀ t ∈ rest.head?, t ≠ .opening ∧ t ≠ .colon

/-- A list of expressions is over before these tokens. -/
def Token.EndsList (rest : List Token) : Prop :=
  ∀ t ∈ rest.head?, t ≠ .opening ∧ t ≠ .colon ∧ t ≠ .comma

namespace Expr

open Token

theorem Derives.ne_nil (h : expr.Derives ts) : ts ≠ [] := by
  cases h with
  | literal | global | call | method => nofun

theorem Commas.head?_ne_closing (h : Commas exprs ts) : ts.head? ≠ some .closing := by
  have hfirst {expr : Expr} {used : List Token} (h : expr.Derives used) (rest : List Token) :
      (used ++ rest).head? ≠ some .closing := by
    cases h with
    | literal hvalue =>
        rintro heq
        cases Option.some.inj heq
        cases hvalue
    | global | call | method => nofun
  cases h with
  | last h =>
      have := hfirst h []
      rwa [List.append_nil] at this
  | cons h => exact hfirst h _

theorem Commas.ne_nil (h : Commas exprs ts) : ts ≠ [] := by
  cases h with
  | last h => exact h.ne_nil
  | cons h => simp

theorem Arguments.opens (h : Arguments exprs ts) : ∃ more, ts = .opening :: more := by
  cases h with
  | none | some => exact ⟨_, rfl⟩

mutual

/-- An expression is read from its tokens and what follows is left, if it does not go on with the
expression. -/
theorem Derives.read {expr : Expr} {used : List Token} (h : expr.Derives used) (rest : List Token)
    (hrest : EndsExpr rest) (bound : Nat) (hbound : 3 * used.length ≤ bound) :
    Expr.read bound (used ++ rest) = .ok (expr, rest) := by
  obtain ⟨bound, rfl⟩ : ∃ b, bound = b + 1 := ⟨bound - 1, by
    have := List.length_pos_iff.mpr h.ne_nil
    omega⟩
  cases h with
  | literal hvalue => simp [Expr.read, hvalue]
  | global n =>
      cases rest with
      | nil => simp [Expr.read, literal?]
      | cons t rest =>
          obtain ⟨hopening, hcolon⟩ := hrest t rfl
          simp only [Expr.read, List.singleton_append, literal?]
          split
          · next heq =>
              cases heq
              exact absurd rfl hopening
          · next heq =>
              cases heq
              exact absurd rfl hcolon
          · rfl
  | call f hargs =>
      have hread := hargs.read rest bound (by simp at hbound; omega)
      obtain ⟨more, rfl⟩ := hargs.opens
      rw [List.cons_append] at hread
      simp only [Expr.read, List.cons_append, literal?, hread]
  | method n m hargs =>
      have hread := hargs.read rest bound (by simp at hbound; omega)
      simp only [Expr.read, List.cons_append, literal?, hread]

theorem Arguments.read {exprs : List Expr} {used : List Token} (h : Arguments exprs used)
    (rest : List Token) (bound : Nat) (hbound : 3 * used.length ≤ bound) :
    readArguments bound (used ++ rest) = .ok (exprs, rest) := by
  obtain ⟨bound, rfl⟩ : ∃ b, bound = b + 1 := ⟨bound - 1, by
    obtain ⟨more, rfl⟩ := h.opens
    simp at hbound
    omega⟩
  cases h with
  | none => simp [readArguments, expectToken]
  | @some _ ts hcommas =>
      have hends : EndsList (.closing :: rest) := by
        rintro t ⟨⟩
        exact ⟨nofun, nofun, nofun⟩
      have hread := hcommas.read _ hends bound (by simp at hbound; omega)
      have hopens : expectToken .opening (.opening :: (ts ++ .closing :: rest)) =
          .ok (ts ++ .closing :: rest) := by simp [expectToken]
      have hclosing := hcommas.head?_ne_closing
      simp only [readArguments, List.append_assoc, List.cons_append, List.nil_append, hopens]
      split
      · next heq => cases heq
      · next inner heq =>
          obtain ⟨t, more, rfl⟩ := List.exists_cons_of_ne_nil hcommas.ne_nil
          cases heq
          exact absurd rfl hclosing
      · next heq =>
          cases heq
          simp [hread, expectToken]

theorem Commas.read {exprs : List Expr} {used : List Token} (h : Commas exprs used)
    (rest : List Token) (hrest : EndsList rest) (bound : Nat)
    (hbound : 3 * used.length + 1 ≤ bound) : readList bound (used ++ rest) = .ok (exprs, rest) := by
  obtain ⟨bound, rfl⟩ : ∃ b, bound = b + 1 := ⟨bound - 1, by omega⟩
  cases h with
  | last h =>
      have hread := h.read rest (fun t ht => ⟨(hrest t ht).1, (hrest t ht).2.1⟩) bound
        (by omega)
      simp only [readList, hread]
      split
      · next heq => cases heq
      · next heq =>
          cases heq
          exact absurd rfl (hrest _ rfl).2.2
      · next heq =>
          cases heq
          rfl
  | @cons _ _ ts ts' h hmore =>
      have hends : EndsExpr (.comma :: (ts' ++ rest)) := by
        rintro t ⟨⟩
        exact ⟨nofun, nofun⟩
      have hread := h.read _ hends bound (by simp at hbound; omega)
      have hreadMore := hmore.read rest hrest bound (by simp at hbound; omega)
      rw [List.append_assoc, List.cons_append]
      simp only [readList, hread, hreadMore]

end

end Expr

namespace Statement

open Token

theorem Names.ne_nil (h : Names names ts) : ts ≠ [] := by
  cases h with
  | last | cons => nofun

theorem names_of_readNames (h : readNames ts = .ok (names, rest)) :
    ∃ used, ts = used ++ rest ∧ Names names used := by
  fun_induction readNames ts generalizing names with
  | case1 n more names' after hmore ih =>
      cases h
      obtain ⟨used, rfl, hused⟩ := ih hmore
      exact ⟨.name n :: .comma :: used, rfl, .cons n hused⟩
  | case2 n more e hmore => cases h
  | case3 n more hno =>
      cases h
      exact ⟨[.name n], rfl, .last n⟩
  | case4 => cases h

theorem Names.read (h : Names names used) (rest : List Token) (hrest : rest.head? ≠ some .comma) :
    readNames (used ++ rest) = .ok (names, rest) := by
  induction h with
  | last n =>
      cases rest with
      | nil => rfl
      | cons t rest =>
          unfold readNames
          split
          · next heq =>
              cases heq
              exact absurd rfl hrest
          · next heq =>
              cases heq
              rfl
          · next hno => exact absurd rfl (hno n (t :: rest))
  | cons n _ ih => simp [readNames, ih]

theorem commas_iff_readList :
    Expr.readList (Expr.boundFor ts) ts = .ok (exprs, []) ↔ Expr.Commas exprs ts := by
  constructor
  · intro h
    obtain ⟨used, hused, hderives⟩ := Expr.commas_of_read _ h
    rw [List.append_nil] at hused
    exact hused ▸ hderives
  · intro h
    have hread := h.read [] (by rintro t ⟨⟩) (Expr.boundFor ts)
      (by simp [Expr.boundFor])
    rwa [List.append_nil] at hread

theorem derives_iff_read : Expr.read (Expr.boundFor ts) ts = .ok (expr, []) ↔ expr.Derives ts := by
  constructor
  · intro h
    obtain ⟨used, hused, hderives⟩ := Expr.derives_of_read _ h
    rw [List.append_nil] at hused
    exact hused ▸ hderives
  · intro h
    have hread := h.read [] (by rintro t ⟨⟩) (Expr.boundFor ts)
      (by simp only [Expr.boundFor]; omega)
    rwa [List.append_nil] at hread

theorem readAssignment_eq_ok {declares : Bool} :
    readAssignment declares ts = .ok (statement, []) ↔
      (∃ targets values names more, statement = .assign targets values ∧
        ts = names ++ .equals :: more ∧ Names targets names ∧ Expr.Commas values more) ∨
      (declares = true ∧ ∃ targets, statement = .assign targets [] ∧ Names targets ts) := by
  constructor
  · intro h
    unfold readAssignment at h
    split at h
    · cases h
    · next targets more hnames =>
        obtain ⟨names, hts, hderives⟩ := names_of_readNames hnames
        split at h
        · cases h
          next values hvalues =>
            exact .inl ⟨targets, values, names, more, rfl, hts, hderives,
              commas_iff_readList.mp hvalues⟩
        · cases h
    · next targets rest _ hnames =>
        obtain ⟨names, hts, hderives⟩ := names_of_readNames hnames
        split at h
        · next hdeclares =>
            cases h
            rw [List.append_nil] at hts
            exact .inr ⟨hdeclares, targets, rfl, hts ▸ hderives⟩
        · cases h
  · rintro (⟨targets, values, names, more, rfl, rfl, hnames, hvalues⟩ |
      ⟨rfl, targets, rfl, hnames⟩)
    · have hread := hnames.read (.equals :: more) (by simp)
      simp only [readAssignment, hread, commas_iff_readList.mpr hvalues]
    · have hread := hnames.read [] (by simp)
      rw [List.append_nil] at hread
      simp [readAssignment, hread]

theorem readCall_eq_ok : readCall ts = .ok (statement, []) ↔
    ∃ expr, statement = .call expr ∧ expr.isCall = true ∧ expr.Derives ts := by
  constructor
  · intro h
    unfold readCall at h
    split at h
    · cases h
    · next expr rest hread =>
        split at h
        · cases h
          next hcall => exact ⟨expr, rfl, hcall, derives_iff_read.mp hread⟩
        · cases h
  · rintro ⟨expr, rfl, hcall, hderives⟩
    simp only [readCall, derives_iff_read.mpr hderives, if_pos hcall]

theorem ofTokens_eq_ok_iff_readPart :
    ofTokens ts = .ok statement ↔ readPart ts = .ok (statement, []) := by
  unfold ofTokens
  split
  · next hfail => simp [hfail]
  · next found hread => simp [hread]
  · next hread => simp [hread]

theorem readPart_of_not_startsLocal (h : ¬ StartsLocal ts) :
    readPart ts = if .equals ∈ ts then readAssignment false ts else readCall ts := by
  unfold readPart
  split
  · exact absurd rfl h
  · rfl

theorem startsLocal_append {names : List Token} (h : names ≠ []) (rest : List Token) :
    StartsLocal (names ++ rest) ↔ StartsLocal names := by
  obtain ⟨t, more, rfl⟩ := List.exists_cons_of_ne_nil h
  exact Iff.rfl

theorem ofTokens_eq_ok_iff : ofTokens ts = .ok statement ↔ statement.Reads ts := by
  rw [ofTokens_eq_ok_iff_readPart]
  by_cases hlocal : StartsLocal ts
  · obtain ⟨more, rfl⟩ := List.head?_eq_some_iff.mp hlocal
    have hpart : readPart (.name "local" :: more) = readAssignment true more := rfl
    rw [hpart, readAssignment_eq_ok]
    constructor
    · rintro (⟨targets, values, names, ts, rfl, rfl, hnames, hvalues⟩ |
        ⟨-, targets, rfl, hnames⟩)
      · exact .declareAssign hnames hvalues
      · exact .declare hnames
    · intro h
      generalize hts : Token.name "local" :: more = ts at h
      cases h with
      | assign hallowed hnames =>
          rw [hts, startsLocal_append hnames.ne_nil] at hlocal
          exact absurd hlocal hallowed
      | declareAssign hnames hvalues =>
          cases hts
          exact .inl ⟨_, _, _, _, rfl, rfl, hnames, hvalues⟩
      | declare hnames =>
          cases hts
          exact .inr ⟨rfl, _, rfl, hnames⟩
      | call _ _ _ hno => exact absurd (hts ▸ hlocal) hno
  · rw [readPart_of_not_startsLocal hlocal]
    constructor
    · intro h
      split at h
      · rw [readAssignment_eq_ok] at h
        rcases h with ⟨targets, values, names, more, rfl, rfl, hnames, hvalues⟩ | ⟨⟨⟩, -⟩
        rw [startsLocal_append hnames.ne_nil] at hlocal
        exact .assign hlocal hnames hvalues
      · next hequals =>
          obtain ⟨expr, rfl, hcall, hderives⟩ := readCall_eq_ok.mp h
          exact .call hderives hcall hequals hlocal
    · intro h
      cases h with
      | assign hallowed hnames hvalues =>
          rw [if_pos (by simp), readAssignment_eq_ok]
          exact .inl ⟨_, _, _, _, rfl, rfl, hnames, hvalues⟩
      | declareAssign | declare => exact absurd rfl hlocal
      | call hderives hcall hequals =>
          rw [if_neg hequals, readCall_eq_ok]
          exact ⟨_, rfl, hcall, hderives⟩

theorem Reads.unique {statement' : Statement} (h : statement.Reads ts) (h' : statement'.Reads ts) :
    statement = statement' := by
  rw [← ofTokens_eq_ok_iff] at h h'
  rw [h] at h'
  exact Except.ok.inj h'

theorem Reads.ne_nil (h : statement.Reads ts) : ts ≠ [] := by
  cases h with
  | assign | declareAssign | declare => simp
  | call h => exact h.ne_nil

end Statement

end ScriptPool
