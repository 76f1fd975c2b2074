import Mathlib.Data.List.Forall2
import ScriptPool.Bag.Call
import ScriptPool.Proofs.Token.LineEnd
import ScriptPool.Proofs.Value.Plain
import ScriptPool.Script.Statement

namespace ScriptPool

open ScriptPool.Text

def Argument.expr : Argument → Expr
  | .global name => .global name
  | .literal value => .literal value

namespace Call

def expr (call : Call) : Expr :=
  .call call.function (call.arguments.map Argument.expr)

def statement (call : Call) : Statement :=
  if call.returns.isEmpty then .call call.expr else .assign call.returns [call.expr]

variable {ts rest after : List Token} {names : List String}

theorem readNames_statement (h : readNames ts = .ok (names, rest)) :
    Statement.readNames ts = .ok (names, rest) := by
  fun_induction readNames ts generalizing names with
  | case1 n more names' after hmore ih =>
      cases h
      simp [Statement.readNames, ih hmore]
  | case2 n more e hmore => cases h
  | case3 n _ hno =>
      cases h
      unfold Statement.readNames
      split
      · next n' more' heq =>
          cases heq
          exact absurd rfl (hno _)
      · next heq =>
          cases heq
          rfl
      · next hname => exact absurd rfl (hname n rest)
  | case4 => cases h

theorem readNames_ne_nil (h : readNames ts = .ok (names, rest)) : names ≠ [] := by
  fun_induction readNames ts generalizing names with
  | case1 => cases h; nofun
  | case2 => cases h
  | case3 => cases h; nofun
  | case4 => cases h

theorem read_argument {a : Argument} {t : Token} (ha : Argument.ofToken? t = some a) (bound : Nat)
    (hrest : rest.head? = some .comma ∨ rest.head? = some .closing) :
    Expr.read (bound + 1) (t :: rest) = .ok (a.expr, rest) := by
  cases t with
  | name n =>
      cases ha
      cases rest with
      | nil => simp at hrest
      | cons t' rest =>
          simp only [List.head?_cons, Option.some.injEq] at hrest
          rcases hrest with rfl | rfl
          · rfl
          · rfl
  | number | string | nil | boolean =>
      cases ha
      rfl
  | opening | closing | comma | equals | colon => cases ha

theorem readArguments_expr {as : List Argument} (h : readArguments ts = .ok (as, after))
    {bound : Nat} (hbound : ts.length < bound) :
    Expr.readList bound ts = .ok (as.map Argument.expr, .closing :: after) := by
  fun_induction readArguments ts generalizing as bound with
  | case1 | case2 | case4 | case6 => cases h
  | case3 t a ha more as' after' hmore ih =>
      cases h
      obtain ⟨b, rfl⟩ : ∃ b, bound = b + 2 := ⟨bound - 2, by simp at hbound; omega⟩
      have hlist : Expr.readList (b + 1) more = .ok (as'.map Argument.expr, .closing :: after) :=
        ih hmore (by simp at hbound; omega)
      have hread : Expr.read (b + 1) (t :: .comma :: more) = .ok (a.expr, .comma :: more) :=
        read_argument ha b (.inl rfl)
      rw [Expr.readList, hread]
      simp only [hlist, List.map_cons]
  | case5 t a ha more =>
      cases h
      obtain ⟨b, rfl⟩ : ∃ b, bound = b + 2 := ⟨bound - 2, by simp at hbound; omega⟩
      have hread : Expr.read (b + 1) (t :: .closing :: after) = .ok (a.expr, .closing :: after) :=
        read_argument ha b (.inr rfl)
      rw [Expr.readList, hread]
      rfl
theorem readApplication_expr {f : String} {as : List Argument}
    (h : readApplication ts = .ok (f, as, after)) {bound : Nat} (hbound : ts.length + 1 < bound) :
    Expr.read bound ts = .ok (.call f (as.map Argument.expr), after) := by
  obtain ⟨b, rfl⟩ : ∃ b, bound = b + 2 := ⟨bound - 2, by omega⟩
  unfold readApplication at h
  split at h
  · cases h
    rfl
  · next f' more hno =>
      split at h
      · next as' after' hmore =>
          cases h
          have hlist : Expr.readList b more = .ok (as.map Argument.expr, .closing :: after) :=
            readArguments_expr hmore (by simp at hbound; omega)
          have harguments : Expr.readArguments (b + 1) (.opening :: more) =
              .ok (as.map Argument.expr, after) := by
            unfold Expr.readArguments
            simp only [expectToken, if_true, hlist]
          unfold Expr.read
          simp only [Token.literal?, harguments]
      · cases h
  · cases h
  · cases h

theorem ofTokens_statement {text : String} {call : Call} (h : ofTokens text ts = .ok call)
    (hlocal : ts.head? ≠ some (.name "local")) : Statement.ofTokens ts = .ok call.statement := by
  unfold ofTokens at h
  split at h
  · cases h
  · next returns found hreturns =>
      split at h
      · cases h
      · next function arguments happlication =>
          cases h
          have hpart : Statement.readPart ts = if .equals ∈ ts then
              Statement.readAssignment false ts else Statement.readCall ts := by
            unfold Statement.readPart
            split
            · exact absurd rfl hlocal
            · rfl
          unfold readReturns at hreturns
          split at hreturns
          · next hequals =>
              split at hreturns
              · next names after hnames =>
                  cases hreturns
                  have hread : Expr.read (Expr.boundFor found - 1) found = .ok
                      (.call function (arguments.map Argument.expr), []) :=
                    readApplication_expr happlication (by simp [Expr.boundFor]; omega)
                  have hlist : Expr.readList (Expr.boundFor found) found = .ok
                      ([.call function (arguments.map Argument.expr)], []) := by
                    rw [show Expr.boundFor found = Expr.boundFor found - 1 + 1 from rfl,
                      Expr.readList]
                    simp only [hread]
                  have hne := readNames_ne_nil hnames
                  simp [Statement.ofTokens, hpart, hequals, Statement.readAssignment,
                    readNames_statement hnames, hlist, statement, expr, hne]
              · cases hreturns
              · cases hreturns
          · next hequals =>
              cases hreturns
              have hread : Expr.read (Expr.boundFor ts) ts = .ok
                  (.call function (arguments.map Argument.expr), []) :=
                readApplication_expr happlication (by simp [Expr.boundFor]; omega)
              simp [Statement.ofTokens, hpart, hequals, Statement.readCall, hread, Expr.isCall,
                statement, expr]
      · cases h
/-- No handle can be reached from the literals of the call. -/
def Plain (call : Call) : Prop :=
  ∀ value, .literal value ∈ call.arguments → value.Plain

theorem ofToken?_plain {t : Token} {value : Value}
    (h : Argument.ofToken? t = some (.literal value)) : value.Plain := by
  cases t with
  | name | opening | closing | comma | equals | colon => cases h
  | number | string | nil | boolean =>
      cases h
      rfl

theorem readArguments_plain {as : List Argument} (h : readArguments ts = .ok (as, after))
    {value : Value} (hvalue : .literal value ∈ as) : value.Plain := by
  fun_induction readArguments ts generalizing as with
  | case1 | case2 | case4 | case6 => cases h
  | case3 t a ha more as' after' hmore ih =>
      cases h
      rw [List.mem_cons] at hvalue
      rcases hvalue with rfl | hvalue
      · exact ofToken?_plain ha
      · exact ih hmore hvalue
  | case5 t a ha more =>
      cases h
      rw [List.mem_singleton] at hvalue
      subst hvalue
      exact ofToken?_plain ha

theorem plain_of_parse {text : String} {call : Call} (h : parse text = .ok call) : call.Plain := by
  intro value hvalue
  unfold parse at h
  split at h
  · next call' hread =>
      cases h
      unfold read at hread
      split at hread
      · cases hread
      · unfold ofTokens at hread
        split at hread
        · cases hread
        · split at hread
          · cases hread
          · next function arguments happlication =>
              cases hread
              unfold readApplication at happlication
              split at happlication
              · cases happlication
                cases hvalue
              · split at happlication
                · next hmore =>
                    cases happlication
                    exact readArguments_plain hmore hvalue
                · cases happlication
              · cases happlication
              · cases happlication
          · cases hread
  · cases h

/-- The text is a call that can stand on a line of a chunk. -/
structure IsLine (text : String) (call : Call) : Prop where
  single : '\n' ∉ text.toList
  parses : parse text = .ok call
  starts : ∀ ts, tokens text = .ok ts → ts.head? ≠ some (.name "local")

theorem IsLine.tokens {text : String} {call : Call} (h : IsLine text call) :
    ∃ t ts, ScriptPool.tokens text = .ok (t :: ts) ∧
      Statement.ofTokens (t :: ts) = .ok call.statement := by
  have hparse := h.parses
  unfold parse at hparse
  split at hparse
  · next call' hread =>
      cases hparse
      unfold read at hread
      split at hread
      · cases hread
      · next ts hts =>
          cases ts with
          | nil => cases hread
          | cons t ts => exact ⟨t, ts, hts, ofTokens_statement hread (h.starts _ hts)⟩
  · cases hparse

theorem IsLine.ofLine? {text : String} {call : Call} (h : IsLine text call) :
    Statement.ofLine? text.toList = .ok (some call.statement) := by
  obtain ⟨t, ts, hts, hstatement⟩ := h.tokens
  have hread : Token.readAll 1 text.toList = .ok (t :: ts) := hts
  simp only [Statement.ofLine?, hread, hstatement]

theorem IsLine.ofLine?_dropReturn {text : String} {call : Call} (h : IsLine text call) :
    Statement.ofLine? (dropReturn text.toList) = .ok (some call.statement) := by
  obtain ⟨t, ts, hts, hstatement⟩ := h.tokens
  have hread : Token.readAll 1 (dropReturn text.toList) = .ok (t :: ts) :=
    Token.readAll_dropReturn hts
  simp only [Statement.ofLine?, hread, hstatement]

theorem IsLine.toList_ne_nil {text : String} {call : Call} (h : IsLine text call) :
    text.toList ≠ [] := by
  intro hnil
  have hline := h.ofLine?
  rw [hnil] at hline
  simp [Statement.ofLine?, Token.readAll] at hline

end Call

theorem Text.pieces_of_not_mem {cs : List Char} (h : '\n' ∉ cs) : pieces cs = [cs] := by
  induction cs with
  | nil => rfl
  | cons c cs ih =>
      rw [List.mem_cons, not_or] at h
      rw [pieces, if_neg (Ne.symm h.1), ih h.2]

theorem Text.pieces_append {cs rest : List Char} (h : '\n' ∉ cs) :
    pieces (cs ++ '\n' :: rest) = cs :: pieces rest := by
  induction cs with
  | nil => simp [pieces]
  | cons c cs ih =>
      rw [List.mem_cons, not_or] at h
      rw [List.cons_append, pieces, if_neg (Ne.symm h.1), ih h.2]

theorem Text.lines_append {cs rest : List Char} (h : '\n' ∉ cs) :
    lines (cs ++ '\n' :: rest) = dropReturn cs :: lines rest := by
  rw [lines, pieces_append h, lines]
  cases hrest : pieces rest with
  | nil => exact absurd hrest (pieces_ne_nil rest)
  | cons line others => rfl

theorem Chunk.parse_calls {texts : List String} {calls : List Call}
    (h : List.Forall₂ Call.IsLine texts calls) (name : String) :
    ∃ lines, Chunk.parse name ("\n".intercalate texts) = .ok ⟨name, lines⟩ ∧
      lines.map Prod.snd = calls.map Call.statement := by
  have hlines : ∀ number, ∃ lines,
      Chunk.readLines name number (Text.lines ("\n".intercalate texts).toList) = .ok lines ∧
        lines.map Prod.snd = calls.map Call.statement := by
    induction h with
    | nil => exact fun number => ⟨[], rfl, rfl⟩
    | @cons text call texts calls hline hrest ih =>
        intro number
        cases hrest with
        | nil =>
            refine ⟨[(number, call.statement)], ?_, rfl⟩
            have hlast : Text.lines text.toList = [text.toList] := by
              simp [Text.lines, Text.pieces_of_not_mem hline.single, Text.finishLines,
                hline.toList_ne_nil]
            rw [String.intercalate_singleton, hlast]
            simp [Chunk.readLines, hline.ofLine?]
        | @cons text' call' texts calls hline' hrest =>
            obtain ⟨lines, hread, hmap⟩ := ih (number + 1)
            refine ⟨(number, call.statement) :: lines, ?_, by simp [hmap]⟩
            have hcut : Text.lines ("\n".intercalate (text :: text' :: texts)).toList =
                dropReturn text.toList ::
                  Text.lines ("\n".intercalate (text' :: texts)).toList := by
              rw [String.toList_intercalate, String.toList_intercalate, List.map_cons,
                List.intercalate_cons_of_ne_nil (by simp), List.append_assoc]
              exact Text.lines_append hline.single
            rw [hcut]
            simp only [Chunk.readLines, hline.ofLine?_dropReturn, hread]
  obtain ⟨lines, hread, hmap⟩ := hlines 1
  exact ⟨lines, by rw [Chunk.parse, hread], hmap⟩

end ScriptPool
