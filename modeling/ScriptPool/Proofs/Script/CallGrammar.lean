import ScriptPool.Proofs.Script.CallLine
import ScriptPool.Proofs.Script.ChunkGrammar

namespace ScriptPool

/-- The tokens of arguments with commas between them, at least one. -/
inductive Argument.Commas : List Argument → List Token → Prop where
  | last {a : Argument} {t : Token} (h : ofToken? t = some a) : Commas [a] [t]
  | cons {a : Argument} {arguments : List Argument} {t : Token} {ts : List Token}
      (h : ofToken? t = some a) (hrest : Commas arguments ts) :
      Commas (a :: arguments) (t :: .comma :: ts)

/-- The tokens of a function name with arguments in parentheses. -/
inductive Call.Applies (f : String) : List Argument → List Token → Prop where
  | none : Applies f [] [.name f, .opening, .closing]
  | some {arguments : List Argument} {ts : List Token} (h : Argument.Commas arguments ts) :
      Applies f arguments (.name f :: .opening :: (ts ++ [.closing]))

/-- The tokens that a call is derived from. Its text does not matter. -/
inductive Call.Derives (text : String) : Call → List Token → Prop where
  | plain {f : String} {arguments : List Argument} {ts : List Token}
      (h : Applies f arguments ts) : Derives text ⟨text, f, arguments, []⟩ ts
  | returns {f : String} {arguments : List Argument} {returns : List String}
      {names ts : List Token} (hnames : Statement.Names returns names)
      (h : Applies f arguments ts) :
      Derives text ⟨text, f, arguments, returns⟩ (names ++ .equals :: ts)

/-- The statement does no more than call a function on globals and literals. What the function
returns goes under the target names, of which a plain call has none. -/
inductive Statement.Defers (f : String) (arguments : List Argument) :
    Statement → List String → Prop where
  | call : Defers f arguments (.call (.call f (arguments.map Argument.expr))) []
  | assign (targets : List String) :
      Defers f arguments (.assign targets [.call f (arguments.map Argument.expr)]) targets

variable {text f : String} {call : Call} {arguments : List Argument} {ts rest : List Token}
  {names : List Token} {returns : List String} {a : Argument} {t : Token} {statement : Statement}

theorem Argument.ofToken?_ne_equals (h : ofToken? t = some a) : t ≠ .equals := by
  rintro rfl
  cases h

theorem Argument.Commas.equals_not_mem (h : Commas arguments ts) : .equals ∉ ts := by
  induction h with
  | last h => simpa using (ofToken?_ne_equals h).symm
  | cons h _ ih => simpa [ih] using (ofToken?_ne_equals h).symm

theorem Argument.Commas.read (h : Commas arguments ts) (rest : List Token) :
    Call.readArguments (ts ++ .closing :: rest) = .ok (arguments, rest) := by
  induction h with
  | last h => simp [Call.readArguments, h]
  | cons h _ ih => simp [Call.readArguments, h, ih]

theorem Argument.Commas.exists_cons (h : Commas arguments ts) :
    ∃ t more, ts = t :: more ∧ t ≠ .closing := by
  have hfirst {t : Token} {a : Argument} (h : ofToken? t = some a) : t ≠ .closing := by
    rintro rfl
    cases h
  cases h with
  | last h => exact ⟨_, _, rfl, hfirst h⟩
  | cons h => exact ⟨_, _, rfl, hfirst h⟩

namespace Call

theorem Applies.equals_not_mem (h : Applies f arguments ts) : .equals ∉ ts := by
  cases h with
  | none => simp
  | some h => simpa using h.equals_not_mem

theorem Applies.read (h : Applies f arguments ts) :
    readApplication ts = .ok (f, arguments, []) := by
  cases h with
  | none => rfl
  | some h =>
      have hread := h.read []
      obtain ⟨t, more, rfl, hclosing⟩ := h.exists_cons
      unfold readApplication
      split
      · next heq =>
          cases heq
          exact absurd rfl hclosing
      · next heq =>
          cases heq
          rw [hread]
      · next hopening heq =>
          cases heq
          exact absurd rfl (hopening _)
      · next hno => exact absurd rfl (hno f _)

theorem readNames_of_names (h : Statement.Names returns names) (hrest : rest.head? ≠ some .comma) :
    readNames (names ++ rest) = .ok (returns, rest) := by
  induction h with
  | last n =>
      cases rest with
      | nil => rfl
      | cons t rest =>
          unfold readNames
          split
          · next heq =>
              cases heq
              exact absurd rfl hrest
          · next heq =>
              cases heq
              rfl
          · next hno => exact absurd rfl (hno n (t :: rest))
  | cons n _ ih => simp [readNames, ih]

theorem Derives.read (h : Derives text call ts) : ofTokens text ts = .ok call := by
  cases h with
  | plain h => simp [ofTokens, readReturns, h.equals_not_mem, h.read]
  | @returns _ _ returns names ts hnames h =>
      have hread : readNames (names ++ .equals :: ts) = .ok (returns, .equals :: ts) :=
        readNames_of_names hnames (by simp)
      simp [ofTokens, readReturns, hread, h.read]

end Call

theorem Argument.derives_expr (h : a.expr.Derives ts) : ∃ t, ts = [t] ∧ ofToken? t = some a := by
  cases a with
  | global name =>
      cases h
      exact ⟨.name name, rfl, rfl⟩
  | literal value =>
      cases h with
      | @literal t _ hvalue =>
          refine ⟨t, rfl, ?_⟩
          unfold ofToken?
          split
          · cases hvalue
          · rw [hvalue]
            rfl

theorem Argument.commas_of_exprs (h : Expr.Commas (arguments.map expr) ts) :
    Commas arguments ts := by
  induction arguments generalizing ts with
  | nil => cases h
  | cons a arguments ih =>
      rw [List.map_cons] at h
      generalize hexprs : arguments.map expr = exprs at h
      cases h with
      | last h =>
          obtain ⟨t, rfl, ht⟩ := derives_expr h
          rw [List.map_eq_nil_iff] at hexprs
          subst hexprs
          exact .last ht
      | cons h hrest =>
          obtain ⟨t, rfl, ht⟩ := derives_expr h
          subst hexprs
          exact .cons ht (ih hrest)

theorem Call.applies_of_expr (h : (Expr.call f (arguments.map Argument.expr)).Derives ts) :
    Applies f arguments ts := by
  cases h with
  | call _ h =>
      generalize hexprs : arguments.map Argument.expr = exprs at h
      cases h with
      | none =>
          rw [List.map_eq_nil_iff] at hexprs
          subst hexprs
          exact .none
      | some h =>
          subst hexprs
          exact .some (Argument.commas_of_exprs h)

theorem Call.derives_of_defers (h : statement.Defers f arguments returns)
    (hreads : statement.Reads ts) (hlocal : ¬ Statement.StartsLocal ts) :
    Derives text ⟨text, f, arguments, returns⟩ ts := by
  cases h with
  | call =>
      cases hreads with
      | call h => exact .plain (applies_of_expr h)
  | assign =>
      cases hreads with
      | assign _ hnames hvalues =>
          cases hvalues with
          | last h => exact .returns hnames (applies_of_expr h)
          | cons _ hrest => cases hrest
      | declareAssign => exact absurd rfl hlocal

theorem Call.statement_defers (call : Call) :
    call.statement.Defers call.function call.arguments call.returns := by
  obtain ⟨text, f, arguments, returns⟩ := call
  cases returns with
  | nil => exact .call
  | cons name names => exact .assign (name :: names)

theorem Chunk.parse_line (hline : '\n' ∉ text.toList) (name : String) :
    Chunk.parse name text = match Statement.ofLine? text.toList with
      | .ok none => .ok ⟨name, []⟩
      | .ok (some statement) => .ok ⟨name, [(1, statement)]⟩
      | .error fault => .error (.load name 1 fault.message) := by
  have hpieces := Text.pieces_of_not_mem hline
  by_cases hempty : text.toList = []
  · have hlines : Text.lines text.toList = [] := by
      simp [Text.lines, hempty, Text.pieces, Text.finishLines]
    have hnone : Statement.ofLine? text.toList = .ok none := by
      simp [Statement.ofLine?, hempty, Token.readAll]
    rw [Chunk.parse, hlines, hnone]
    rfl
  · have hlines : Text.lines text.toList = [text.toList] := by
      simp [Text.lines, hpieces, Text.finishLines, hempty]
    rw [Chunk.parse, hlines]
    cases hstatement : Statement.ofLine? text.toList with
    | error fault => simp [Chunk.readLines, hstatement]
    | ok found =>
        cases found with
        | none | some => simp [Chunk.readLines, hstatement]

theorem Chunk.parse_line_eq_iff {number : Nat} (hline : '\n' ∉ text.toList) (name : String) :
    Chunk.parse name text = .ok ⟨name, [(number, statement)]⟩ ↔
      number = 1 ∧ ∃ ts, tokens text = .ok ts ∧ statement.Reads ts := by
  rw [parse_line hline]
  have hreads : Statement.ofLine? text.toList = .ok (some statement) ↔
      ∃ ts, tokens text = .ok ts ∧ statement.Reads ts := Statement.ofLine?_eq_ok_iff
  rw [← hreads]
  cases hfound : Statement.ofLine? text.toList with
  | error fault => simp
  | ok found =>
      cases found with
      | none | some => simp [and_comm, eq_comm]

theorem Call.parse_eq_ok_iff : parse text = .ok call ↔
    ∃ ts, tokens text = .ok ts ∧ ofTokens (String.ofList (Text.trim text.toList)) ts = .ok call := by
  unfold parse read
  cases tokens text with
  | error e => simp
  | ok ts =>
      cases hread : ofTokens (String.ofList (Text.trim text.toList)) ts with
      | error | ok => simp [hread]

/-- A line that does not declare is read as a call exactly if it is one statement that defers a
call, and then to the parts of that statement. -/
theorem Call.parse_iff_defers (hline : '\n' ∉ text.toList)
    (hlocal : ∀ ts, tokens text = .ok ts → ts.head? ≠ some (.name "local")) (name : String) :
    (∃ call, parse text = .ok call ∧
      call.function = f ∧ call.arguments = arguments ∧ call.returns = returns) ↔
    ∃ number statement, Chunk.parse name text = .ok ⟨name, [(number, statement)]⟩ ∧
      statement.Defers f arguments returns := by
  simp only [Chunk.parse_line_eq_iff hline]
  constructor
  · rintro ⟨call, hparse, rfl, rfl, rfl⟩
    obtain ⟨ts, htokens, hread⟩ := parse_eq_ok_iff.mp hparse
    have hstatement : call.statement.Reads ts :=
      Statement.ofTokens_eq_ok_iff.mp (ofTokens_statement hread (hlocal ts htokens))
    exact ⟨1, call.statement, ⟨rfl, ts, htokens, hstatement⟩, call.statement_defers⟩
  · rintro ⟨number, statement, ⟨-, ts, htokens, hreads⟩, hdefers⟩
    have hderives : Derives (String.ofList (Text.trim text.toList)) _ ts :=
      derives_of_defers hdefers hreads (hlocal ts htokens)
    exact ⟨_, parse_eq_ok_iff.mpr ⟨ts, htokens, hderives.read⟩, rfl, rfl, rfl⟩

/-- The reader of calls and the reader of chunks agree on a line that does not start with the word
for declarations. It is a call exactly if it is one statement that calls a function on literals and
globals, alone or as the only value of an assignment. Function, arguments and targets are then the
same on both sides, and a plain call has no targets. -/
theorem call_parsers_agree (hline : '\n' ∉ text.toList)
    (hlocal : ∀ ts, tokens text = .ok ts → ts.head? ≠ some (.name "local")) (name : String) :
    ((∃ call, Call.parse text = .ok call) ↔
      ∃ number statement f arguments targets,
        Chunk.parse name text = .ok ⟨name, [(number, statement)]⟩ ∧
          statement.Defers f arguments targets) ∧
    ∀ call number statement f arguments targets, Call.parse text = .ok call →
      Chunk.parse name text = .ok ⟨name, [(number, statement)]⟩ →
      statement.Defers f arguments targets →
      call.function = f ∧ call.arguments = arguments ∧ call.returns = targets := by
  constructor
  · constructor
    · rintro ⟨call, hcall⟩
      obtain ⟨number, statement, hparse, hdefers⟩ :=
        (Call.parse_iff_defers hline hlocal name).mp ⟨call, hcall, rfl, rfl, rfl⟩
      exact ⟨number, statement, _, _, _, hparse, hdefers⟩
    · rintro ⟨number, statement, f, arguments, targets, hparse, hdefers⟩
      obtain ⟨call, hcall, -⟩ :=
        (Call.parse_iff_defers hline hlocal name).mpr ⟨number, statement, hparse, hdefers⟩
      exact ⟨call, hcall⟩
  · intro call number statement f arguments targets hcall hparse hdefers
    obtain ⟨call', hcall', hparts⟩ :=
      (Call.parse_iff_defers hline hlocal name).mpr ⟨number, statement, hparse, hdefers⟩
    rw [hcall] at hcall'
    cases hcall'
    exact hparts

/-- An assignment with arguments of both kinds and a comment. -/
def sumsLine : String :=
  "total, n = sum(cells, nil, 'x') -- both sums"

/-- It is a call on one side and a statement on the other, with the same parts. -/
theorem call_parsers_agree_sums : '\n' ∉ sumsLine.toList ∧
    (∃ ts, tokens sumsLine = .ok ts ∧ ts.head? ≠ some (.name "local")) ∧
    ∃ call number statement, Call.parse sumsLine = .ok call ∧ call.function = "sum" ∧
      Chunk.parse "c" sumsLine = .ok ⟨"c", [(number, statement)]⟩ ∧
      statement.Defers "sum" [.global "cells", .literal .nil, .literal (.string "x")]
        ["total", "n"] := by
  have hline : '\n' ∉ sumsLine.toList := by decide
  have htokens : tokens sumsLine = .ok [.name "total", .comma, .name "n", .equals, .name "sum",
      .opening, .name "cells", .comma, .nil, .comma, .string "x", .closing] := by decide +kernel
  have hlocal : ∀ ts, tokens sumsLine = .ok ts → ts.head? ≠ some (.name "local") := by
    intro ts hts
    rw [htokens] at hts
    cases hts
    decide
  have hcall := Call.parse_eq_ok_iff.mpr ⟨_, htokens, rfl⟩
  obtain ⟨hiff, hparts⟩ := call_parsers_agree hline hlocal "c"
  obtain ⟨number, statement, f, arguments, targets, hparse, hdefers⟩ := hiff.mp ⟨_, hcall⟩
  obtain ⟨rfl, rfl, rfl⟩ := hparts _ _ _ _ _ _ hcall hparse hdefers
  exact ⟨hline, ⟨_, htokens, hlocal _ htokens⟩, _, number, statement, hcall, rfl, hparse, hdefers⟩

end ScriptPool
