import ScriptPool.Proofs.Script.Grammar
import ScriptPool.Proofs.Token.TokenLine

namespace ScriptPool

open ScriptPool.Number ScriptPool.Text

mutual

/-- Equality of expressions, literals being compared as scripts do. -/
def Expr.equal : Expr → Expr → Bool
  | .literal v, .literal w => v.equal w
  | .global n, .global n' => n = n'
  | .call f arguments, .call f' arguments' => f = f' && Expr.equalList arguments arguments'
  | .method n m arguments, .method n' m' arguments' =>
    n = n' && m = m' && Expr.equalList arguments arguments'
  | _, _ => false

def Expr.equalList : List Expr → List Expr → Bool
  | [], [] => true
  | expr :: exprs, expr' :: exprs' => expr.equal expr' && Expr.equalList exprs exprs'
  | _, _ => false

end

def Statement.equal : Statement → Statement → Bool
  | .assign targets values, .assign targets' values' =>
    targets = targets' && Expr.equalList values values'
  | .call expr, .call expr' => expr.equal expr'
  | _, _ => false

/-- The token that a literal stands for. -/
def Value.token : Value → Token
  | .boolean b => .boolean b
  | .number n => .number n
  | .string s => .string s
  | _ => .nil

mutual

def Expr.tokens : Expr → List Token
  | .literal value => [value.token]
  | .global n => [.name n]
  | .call f arguments => .name f :: .opening :: Expr.listTokens arguments ++ [.closing]
  | .method n m arguments =>
    .name n :: .colon :: .name m :: .opening :: Expr.listTokens arguments ++ [.closing]

/-- The tokens of expressions with commas between them. -/
def Expr.listTokens : List Expr → List Token
  | [] => []
  | [last] => last.tokens
  | expr :: rest => expr.tokens ++ .comma :: Expr.listTokens rest

end

namespace Statement

/-- The tokens of names with commas between them. -/
def nameTokens : List String → List Token
  | [] => []
  | [last] => [.name last]
  | n :: rest => .name n :: .comma :: nameTokens rest

/-- The tokens of a statement. An assignment declares its targets. -/
def tokens : Statement → List Token
  | .assign targets [] => .name "local" :: nameTokens targets
  | .assign targets values =>
    .name "local" :: nameTokens targets ++ .equals :: Expr.listTokens values
  | .call expr => expr.tokens

end Statement

variable {ts ts' : List Token} {expr : Expr} {exprs : List Expr} {names : List String}
  {statement : Statement} {t t' : Token} {value : Value}

theorem Value.token_of_literal (h : t.literal? = some value) : value.token = t := by
  cases t with
  | number | string | nil | boolean =>
      cases h
      rfl
  | name | opening | closing | comma | equals | colon => cases h

namespace Expr

theorem Commas.exprs_ne_nil (h : Commas exprs ts) : exprs ≠ [] := by
  cases h with
  | last | cons => nofun

mutual

theorem Derives.tokens_eq : {expr : Expr} → {ts : List Token} → expr.Derives ts → expr.tokens = ts
  | _, _, .literal h => by rw [tokens, Value.token_of_literal h]
  | _, _, .global n => by rw [tokens]
  | _, _, .call f h => by rw [tokens, List.cons_append, h.tokens_eq]
  | _, _, .method n m h => by
      rw [tokens, List.cons_append, List.cons_append, List.cons_append, h.tokens_eq]

theorem Arguments.tokens_eq : {exprs : List Expr} → {ts : List Token} → Arguments exprs ts →
    .opening :: listTokens exprs ++ [.closing] = ts
  | _, _, .none => by rw [listTokens]; rfl
  | _, _, .some h => by rw [h.tokens_eq]

theorem Commas.tokens_eq : {exprs : List Expr} → {ts : List Token} → Commas exprs ts →
    listTokens exprs = ts
  | _, _, .last h => by rw [listTokens, h.tokens_eq]
  | _, _, .cons h hrest => by
      obtain ⟨next, more, rfl⟩ := List.exists_cons_of_ne_nil hrest.exprs_ne_nil
      rw [listTokens, h.tokens_eq, hrest.tokens_eq]
      simp

end

end Expr

namespace Statement

theorem Names.names_ne_nil (h : Names names ts) : names ≠ [] := by
  cases h with
  | last | cons => nofun

theorem Names.tokens_eq (h : Names names ts) : nameTokens names = ts := by
  induction h with
  | last n => rfl
  | cons n h ih =>
      obtain ⟨next, more, rfl⟩ := List.exists_cons_of_ne_nil h.names_ne_nil
      rw [nameTokens, ih]
      simp

/-- The tokens of a statement that was read are those it was read from, with the declaring word in
front of an assignment that lacks it. -/
theorem Reads.tokens_cases (h : statement.Reads ts) :
    statement.Reads statement.tokens ∧
      (statement.tokens = ts ∨ statement.tokens = .name "local" :: ts) := by
  cases h with
  | assign hallowed hnames hvalues =>
      obtain ⟨first, more, rfl⟩ := List.exists_cons_of_ne_nil hvalues.exprs_ne_nil
      rw [tokens, hnames.tokens_eq, hvalues.tokens_eq]
      · exact ⟨.declareAssign hnames hvalues, .inr rfl⟩
      · nofun
  | declareAssign hnames hvalues =>
      obtain ⟨first, more, rfl⟩ := List.exists_cons_of_ne_nil hvalues.exprs_ne_nil
      rw [tokens, hnames.tokens_eq, hvalues.tokens_eq]
      · exact ⟨.declareAssign hnames hvalues, .inl rfl⟩
      · nofun
  | declare hnames =>
      rw [tokens, hnames.tokens_eq]
      exact ⟨.declare hnames, .inl rfl⟩
  | call h hcall hequals hlocal =>
      rw [tokens, h.tokens_eq]
      exact ⟨.call h hcall hequals hlocal, .inl rfl⟩

end Statement

/-- Tokens that stand for the same things, one by one. -/
abbrev Token.Agree (ts ts' : List Token) : Prop :=
  List.Forall₂ (fun t t' => t.agrees t' = true) ts ts'

namespace Token

theorem Agree.split {us : List Token} (h : Agree (ts ++ us) ts') :
    ∃ vs ws, ts' = vs ++ ws ∧ Agree ts vs ∧ Agree us ws := by
  induction ts generalizing ts' with
  | nil => exact ⟨[], ts', rfl, .nil, h⟩
  | cons t ts ih =>
      cases h with
      | cons hfirst hrest =>
          obtain ⟨vs, ws, rfl, hvs, hws⟩ := ih hrest
          exact ⟨_ :: vs, ws, rfl, .cons hfirst hvs, hws⟩

theorem Agree.head (h : Agree (t :: ts) ts') (hnumber : ∀ n, t ≠ .number n) :
    ∃ more, ts' = t :: more ∧ Agree ts more := by
  cases h with
  | cons hfirst hrest => exact ⟨_, by rw [eq_of_agrees hfirst hnumber], hrest⟩

theorem agrees_comm (t t' : Token) : t.agrees t' = t'.agrees t := by
  cases t with
  | name | number | string | nil | boolean | opening | closing | comma | equals | colon =>
      cases t' with
      | name | number | string | nil | boolean | opening | closing | comma | equals | colon =>
          simp [agrees, eq_comm, Double.equal_comm]

theorem Agree.mem (h : Agree ts ts') (hmem : t ∈ ts') (hnumber : ∀ n, t ≠ .number n) : t ∈ ts := by
  induction h with
  | nil => exact hmem
  | cons hfirst _ ih =>
      rcases List.mem_cons.mp hmem with rfl | hmem
      · rw [agrees_comm] at hfirst
        rw [eq_of_agrees hfirst hnumber]
        exact List.mem_cons_self
      · exact List.mem_cons_of_mem _ (ih hmem)

theorem Agree.startsLocal (h : Agree ts ts') (hlocal : Statement.StartsLocal ts') :
    Statement.StartsLocal ts := by
  cases h with
  | nil => exact hlocal
  | cons hfirst _ =>
      cases hlocal
      rw [agrees_comm] at hfirst
      rw [eq_of_agrees hfirst nofun]
      rfl

theorem literal_of_agrees (h : t.agrees t' = true) (hvalue : t.literal? = some value) :
    ∃ value', t'.literal? = some value' ∧ value.equal value' = true := by
  cases t with
  | number n =>
      cases hvalue
      cases t' with
      | number n' => exact ⟨.number n', rfl, by rwa [Value.equal]⟩
      | name | string | nil | boolean | opening | closing | comma | equals | colon =>
          simp [agrees] at h
  | string | nil | boolean =>
      cases hvalue
      rw [eq_of_agrees h (by rintro n ⟨⟩)]
      exact ⟨_, rfl, by simp [Value.equal]⟩
  | name | opening | closing | comma | equals | colon => cases hvalue

end Token

namespace Expr

open Token

mutual

theorem Derives.agree : {expr : Expr} → {ts ts' : List Token} → expr.Derives ts → Agree ts ts' →
    ∃ expr', expr'.Derives ts' ∧ expr.equal expr' = true
  | _, _, _, .literal hvalue, .cons h .nil => by
      obtain ⟨value', hvalue', hequal⟩ := literal_of_agrees h hvalue
      exact ⟨.literal value', .literal hvalue', by rw [equal, hequal]⟩
  | _, _, _, .global n, h => by
      obtain ⟨_, rfl, ⟨⟩⟩ := h.head nofun
      exact ⟨.global n, .global n, by simp [equal]⟩
  | _, _, _, .call f hargs, h => by
      obtain ⟨more, rfl, hmore⟩ := h.head nofun
      obtain ⟨arguments, hargs', hequal⟩ := hargs.agree hmore
      exact ⟨.call f arguments, .call f hargs', by simp [equal, hequal]⟩
  | _, _, _, .method n m hargs, h => by
      obtain ⟨afterName, rfl, hname⟩ := h.head nofun
      obtain ⟨afterColon, rfl, hcolon⟩ := hname.head nofun
      obtain ⟨more, rfl, hmore⟩ := hcolon.head nofun
      obtain ⟨arguments, hargs', hequal⟩ := hargs.agree hmore
      exact ⟨.method n m arguments, .method n m hargs', by simp [equal, hequal]⟩

theorem Arguments.agree : {exprs : List Expr} → {ts ts' : List Token} → Arguments exprs ts →
    Agree ts ts' → ∃ exprs', Arguments exprs' ts' ∧ equalList exprs exprs' = true
  | _, _, _, .none, h => by
      obtain ⟨more, rfl, hmore⟩ := h.head nofun
      obtain ⟨_, rfl, ⟨⟩⟩ := hmore.head nofun
      exact ⟨[], .none, by rw [equalList]⟩
  | _, _, _, .some hcommas, h => by
      obtain ⟨vs, ws, rfl, hvs, hws⟩ := h.split
      obtain ⟨more, rfl, hmore⟩ := hvs.head nofun
      obtain ⟨_, rfl, ⟨⟩⟩ := hws.head nofun
      obtain ⟨exprs', hcommas', hequal⟩ := hcommas.agree hmore
      exact ⟨exprs', .some hcommas', hequal⟩

theorem Commas.agree : {exprs : List Expr} → {ts ts' : List Token} → Commas exprs ts →
    Agree ts ts' → ∃ exprs', Commas exprs' ts' ∧ equalList exprs exprs' = true
  | _, _, _, .last hexpr, h => by
      obtain ⟨expr', hexpr', hequal⟩ := hexpr.agree h
      exact ⟨[expr'], .last hexpr', by simp [equalList, hequal]⟩
  | _, _, _, .cons hexpr hrest, h => by
      obtain ⟨vs, ws, rfl, hvs, hws⟩ := h.split
      obtain ⟨more, rfl, hmore⟩ := hws.head nofun
      obtain ⟨expr', hexpr', hequal⟩ := hexpr.agree hvs
      obtain ⟨exprs', hrest', hequals⟩ := hrest.agree hmore
      exact ⟨expr' :: exprs', .cons hexpr' hrest', by simp [equalList, hequal, hequals]⟩

end

theorem equal_isCall {expr' : Expr} (h : expr.equal expr' = true) : expr'.isCall = expr.isCall := by
  cases expr with
  | literal =>
      cases expr' with
      | literal => rfl
      | _ => simp [equal] at h
  | global =>
      cases expr' with
      | global => rfl
      | _ => simp [equal] at h
  | call =>
      cases expr' with
      | call => rfl
      | _ => simp [equal] at h
  | method =>
      cases expr' with
      | method => rfl
      | _ => simp [equal] at h

end Expr

namespace Statement

open Token

theorem Names.agree (h : Names names ts) (hagree : Agree ts ts') : ts' = ts := by
  induction h generalizing ts' with
  | last n =>
      obtain ⟨_, rfl, ⟨⟩⟩ := hagree.head nofun
      rfl
  | cons n _ ih =>
      obtain ⟨afterName, rfl, hname⟩ := hagree.head nofun
      obtain ⟨more, rfl, hmore⟩ := hname.head nofun
      rw [ih hmore]

theorem Reads.agree (h : statement.Reads ts) (hagree : Agree ts ts') :
    ∃ statement', statement'.Reads ts' ∧ statement.equal statement' = true := by
  cases h with
  | assign hallowed hnames hvalues =>
      obtain ⟨us, ws, rfl, hus, hws⟩ := hagree.split
      obtain ⟨more, rfl, hmore⟩ := hws.head nofun
      obtain ⟨values', hvalues', hequal⟩ := hvalues.agree hmore
      rw [hnames.agree hus]
      exact ⟨.assign _ values', .assign hallowed hnames hvalues', by simp [equal, hequal]⟩
  | declareAssign hnames hvalues =>
      obtain ⟨us, ws, rfl, hus, hws⟩ := hagree.split
      obtain ⟨names', rfl, hnames'⟩ := hus.head nofun
      obtain ⟨more, rfl, hmore⟩ := hws.head nofun
      obtain ⟨values', hvalues', hequal⟩ := hvalues.agree hmore
      rw [hnames.agree hnames']
      exact ⟨.assign _ values', .declareAssign hnames hvalues', by simp [equal, hequal]⟩
  | declare hnames =>
      obtain ⟨names', rfl, hnames'⟩ := hagree.head nofun
      rw [hnames.agree hnames']
      exact ⟨.assign _ [], .declare hnames, by simp [equal, Expr.equalList]⟩
  | call hexpr hcall hequals hlocal =>
      obtain ⟨expr', hexpr', hequal⟩ := hexpr.agree hagree
      refine ⟨.call expr', .call hexpr' ?_ ?_ ?_, by rwa [equal]⟩
      · rw [Expr.equal_isCall hequal, hcall]
      · exact fun hmem => hequals (hagree.mem hmem nofun)
      · exact fun hstarts => hlocal (hagree.startsLocal hstarts)

end Statement

end ScriptPool
