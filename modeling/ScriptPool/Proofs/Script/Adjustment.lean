import Mathlib.Logic.Relation
import ScriptPool.Proofs.Engine.BigStep
import ScriptPool.Proofs.Pool.WriteBack
import ScriptPool.Proofs.Script.LoadError

namespace ScriptPool

/-- The values of expressions with these results: each but the last gives its first result, and the
last gives all of its results. -/
def adjust (results : List (List Value)) : List Value :=
  results.dropLast.map firstResult ++ results.getLast?.getD []

theorem adjust_cons (first second : List Value) (results : List (List Value)) :
    adjust (first :: second :: results) = firstResult first :: adjust (second :: results) := by
  simp [adjust, List.getLast?_cons_cons]

/-- The value at a place of an adjusted list, which is `nil` behind the end. -/
def adjustedAt (results : List (List Value)) (k : Nat) : Value :=
  if k + 1 < results.length then firstResult (results.getD k [])
  else (results.getLastD []).getD (k + 1 - results.length) .nil

theorem adjust_getD (results : List (List Value)) (k : Nat) :
    (adjust results).getD k .nil = adjustedAt results k := by
  induction results generalizing k with
  | nil => simp [adjust, adjustedAt]
  | cons first results ih =>
      cases results with
      | nil => simp [adjust, adjustedAt]
      | cons second results =>
          rw [adjust_cons]
          cases k with
          | zero => simp [adjustedAt]
          | succ k =>
              have hlast : (first :: second :: results).getLastD [] =
                  (second :: results).getLastD [] := by simp
              rw [List.getD_cons_succ, ih, adjustedAt, adjustedAt, hlast, List.getD_cons_succ]
              simp only [List.length_cons, Nat.add_lt_add_iff_right, Nat.add_sub_add_right]

/-- A method call whose arguments have been evaluated, on its own. -/
def Execution.method (c : ContextId) (receiver method : String) (arguments : List Value) :
    Execution :=
  ⟨c, "", callMethod receiver method arguments, [], false⟩

section Evaluates

variable {σ : Type} (library : Library) (runtimes : Runtimes σ) (c : ContextId)

mutual

/-- An expression comes to results or to a failure. The arguments of a call are evaluated and
adjusted before the call is run on its own. -/
inductive Expr.Evaluates :
    Expr → Engine × σ → Except Failure (List Value) → Engine × σ → Prop where
  | literal (value : Value) (s : Engine × σ) : Expr.Evaluates (.literal value) s (.ok [value]) s
  | global (name : String) (s : Engine × σ) :
      Expr.Evaluates (.global name) s (.ok [(s.1.globals c).get name]) s
  | call {function : String} {arguments : List Expr} {results : List (List Value)}
      {s s₁ s' : Engine × σ} {outcome : Except Failure (List Value)}
      (harguments : Expr.EvaluatesAll arguments s (.ok results) s₁)
      (hcall : (Execution.invoke library c function (adjust results)).ComesTo library runtimes s₁
        outcome s') : Expr.Evaluates (.call function arguments) s outcome s'
  | callFails {function : String} {arguments : List Expr} {failure : Failure} {s s' : Engine × σ}
      (harguments : Expr.EvaluatesAll arguments s (.error failure) s') :
      Expr.Evaluates (.call function arguments) s (.error failure) s'
  | method {receiver name : String} {arguments : List Expr} {results : List (List Value)}
      {s s₁ s' : Engine × σ} {outcome : Except Failure (List Value)}
      (harguments : Expr.EvaluatesAll arguments s (.ok results) s₁)
      (hcall : (Execution.method c receiver name (adjust results)).ComesTo library runtimes s₁
        outcome s') : Expr.Evaluates (.method receiver name arguments) s outcome s'
  | methodFails {receiver name : String} {arguments : List Expr} {failure : Failure}
      {s s' : Engine × σ} (harguments : Expr.EvaluatesAll arguments s (.error failure) s') :
      Expr.Evaluates (.method receiver name arguments) s (.error failure) s'

/-- Expressions come to their results one after another, up to the first failure. -/
inductive Expr.EvaluatesAll :
    List Expr → Engine × σ → Except Failure (List (List Value)) → Engine × σ → Prop where
  | nil (s : Engine × σ) : Expr.EvaluatesAll [] s (.ok []) s
  | cons {expr : Expr} {exprs : List Expr} {first : List Value} {results : List (List Value)}
      {s s₁ s' : Engine × σ} (hfirst : Expr.Evaluates expr s (.ok first) s₁)
      (hrest : Expr.EvaluatesAll exprs s₁ (.ok results) s') :
      Expr.EvaluatesAll (expr :: exprs) s (.ok (first :: results)) s'
  | first {expr : Expr} {exprs : List Expr} {failure : Failure} {s s' : Engine × σ}
      (hfirst : Expr.Evaluates expr s (.error failure) s') :
      Expr.EvaluatesAll (expr :: exprs) s (.error failure) s'
  | later {expr : Expr} {exprs : List Expr} {first : List Value} {failure : Failure}
      {s s₁ s' : Engine × σ} (hfirst : Expr.Evaluates expr s (.ok first) s₁)
      (hrest : Expr.EvaluatesAll exprs s₁ (.error failure) s') :
      Expr.EvaluatesAll (expr :: exprs) s (.error failure) s'

end

end Evaluates

variable {σ : Type} {library : Library} {runtimes : Runtimes σ} {c : ContextId}
  {s s₁ s' : Engine × σ}

theorem comes_call_iff {function : String} {arguments : List Value}
    {outcome : Except Failure (List Value)} :
    Comes library runtimes c
        (.perform (.call function arguments) Program.ofExcept : Program (List Value)) s outcome s' ↔
      (Execution.invoke library c function arguments).ComesTo library runtimes s outcome s' := by
  rw [Execution.invoke, Execution.comesTo_iff, Execution.codeOf]
  cases hf : library.find? function with
  | none =>
      have hact : Operation.act? library c s.1 (.call function arguments) =
          some (.error (.functionNotFound function), s.1) := by
        simp only [Operation.act?, hf]
      have hinner : Operation.inner? library (.call function arguments) = none := by
        simp only [Operation.inner?, hf]
      constructor
      · intro h
        cases h with
        | act h hrest =>
            rw [hact] at h
            cases h
            cases hrest
            exact ⟨_, .fail _ _, rfl⟩
        | enter h | broken h => rw [hinner] at h; cases h
      · rintro ⟨inner, h, rfl⟩
        cases h
        exact .act hact (.fail _ _)
  | some f =>
      have hact : Operation.act? library c s.1 (.call function arguments) = none := by
        simp only [Operation.act?, hf]
      have hinner : Operation.inner? library (.call function arguments) =
          some (f function arguments, callAnswer function) := by
        simp only [Operation.inner?, hf]
      constructor
      · intro h
        cases h with
        | act h => rw [hact] at h; cases h
        | @enter _ _ _ _ _ inner _ _ _ _ h hcode hvisible hrest =>
            rw [hinner] at h
            cases h
            rcases inner with (_ | _ | _) | results
            · cases hrest; exact ⟨_, hcode, rfl⟩
            · cases hrest; exact ⟨_, hcode, rfl⟩
            · cases hvisible
            · cases hrest; exact ⟨_, hcode, rfl⟩
        | broken h hcode =>
            rw [hinner] at h
            cases h
            exact ⟨_, hcode, rfl⟩
      · rintro ⟨inner, hcode, rfl⟩
        rcases inner with (_ | _ | text) | results
        · exact .enter hinner hcode trivial (.fail _ _)
        · exact .enter hinner hcode trivial (.fail _ _)
        · exact .broken hinner hcode
        · exact .enter hinner hcode trivial (.done _ _)

theorem Comes.seenFrom_eq {code : Program (List Value)} {outcome : Except Failure (List Value)}
    (h : Comes library runtimes c code s outcome s') (hcode : code.FailsScripted)
    (function : String) : seenFrom function outcome = outcome := by
  cases outcome with
  | ok results => rfl
  | error failure =>
      rcases h.failsWith hcode with ⟨e, rfl, -⟩ | ⟨text, rfl⟩
      · rfl
      · rfl

theorem comesTo_iff_of_scripted {code : Program (List Value)} (hcode : code.FailsScripted)
    {function : String} {outcome : Except Failure (List Value)} :
    Execution.ComesTo library runtimes ⟨c, function, code, [], false⟩ s outcome s' ↔
      Comes library runtimes c code s outcome s' := by
  rw [Execution.comesTo_iff]
  constructor
  · rintro ⟨inner, h, rfl⟩
    rw [h.seenFrom_eq hcode]
    exact h
  · intro h
    exact ⟨outcome, h, (h.seenFrom_eq hcode function).symm⟩

theorem comes_method_iff {receiver name : String} {arguments : List Value}
    {outcome : Except Failure (List Value)} :
    Comes library runtimes c (callMethod receiver name arguments) s outcome s' ↔
      (Execution.method c receiver name arguments).ComesTo library runtimes s outcome s' := by
  have hcode : (callMethod receiver name arguments).FailsScripted :=
    callMethod_scripted receiver name arguments
  exact (comesTo_iff_of_scripted hcode).symm

/-- Code behind a list of expressions starts from their adjusted results, or a failure of theirs is
the end. -/
theorem comes_listProgram_bind_iff {β : Type} {exprs : List Expr}
    (hlist : ∀ s s' outcome, Comes library runtimes c (Expr.listProgram exprs) s outcome s' ↔
      ∃ all, Expr.EvaluatesAll library runtimes c exprs s all s' ∧ outcome = all.map adjust)
    {next : List Value → Program β} {outcome : Except Failure β} :
    Comes library runtimes c ((Expr.listProgram exprs).bind next) s outcome s' ↔
      (∃ results s₁, Expr.EvaluatesAll library runtimes c exprs s (.ok results) s₁ ∧
        Comes library runtimes c (next (adjust results)) s₁ outcome s') ∨
      ∃ failure, outcome = .error failure ∧
        Expr.EvaluatesAll library runtimes c exprs s (.error failure) s' := by
  rw [comes_bind_iff]
  constructor
  · rintro (⟨values, s₁, h, hnext⟩ | ⟨failure, rfl, h⟩)
    · obtain ⟨all, hall, heq⟩ := (hlist ..).mp h
      cases all with
      | error => cases heq
      | ok =>
          cases heq
          exact .inl ⟨_, s₁, hall, hnext⟩
    · obtain ⟨all, hall, heq⟩ := (hlist ..).mp h
      cases all with
      | error =>
          cases heq
          exact .inr ⟨failure, rfl, hall⟩
      | ok => cases heq
  · rintro (⟨results, s₁, hall, hnext⟩ | ⟨failure, rfl, hall⟩)
    · exact .inl ⟨_, s₁, (hlist ..).mpr ⟨_, hall, rfl⟩, hnext⟩
    · exact .inr ⟨failure, rfl, (hlist ..).mpr ⟨_, hall, rfl⟩⟩

mutual

theorem Expr.comes_program_iff : (expr : Expr) → (s s' : Engine × σ) →
    (outcome : Except Failure (List Value)) →
    (Comes library runtimes c expr.program s outcome s' ↔
      expr.Evaluates library runtimes c s outcome s')
  | .literal value, s, s', outcome => by
    rw [Expr.program]
    constructor
    · rintro ⟨⟩
      exact .literal value s
    · rintro ⟨⟩
      exact .done _ s
  | .global name, s, s', outcome => by
    rw [Expr.program]
    constructor
    · intro h
      cases h with
      | act hact h =>
          cases hact
          cases h
          exact .global name s
      | enter hinner | broken hinner => cases hinner
    · rintro ⟨⟩
      exact .act rfl (.done _ _)
  | .call function arguments, s, s', outcome => by
    have hlist := Expr.comes_listProgram_iff arguments
    rw [Expr.program, Program.bind_eq, comes_listProgram_bind_iff hlist]
    constructor
    · rintro (⟨results, s₁, hall, hcall⟩ | ⟨failure, rfl, hall⟩)
      · exact .call hall (comes_call_iff.mp hcall)
      · exact .callFails hall
    · intro h
      cases h with
      | call hall hcall => exact .inl ⟨_, _, hall, comes_call_iff.mpr hcall⟩
      | callFails hall => exact .inr ⟨_, rfl, hall⟩
  | .method receiver name arguments, s, s', outcome => by
    have hlist := Expr.comes_listProgram_iff arguments
    rw [Expr.program, Program.bind_eq, comes_listProgram_bind_iff hlist]
    constructor
    · rintro (⟨results, s₁, hall, hcall⟩ | ⟨failure, rfl, hall⟩)
      · exact .method hall (comes_method_iff.mp hcall)
      · exact .methodFails hall
    · intro h
      cases h with
      | method hall hcall => exact .inl ⟨_, _, hall, comes_method_iff.mpr hcall⟩
      | methodFails hall => exact .inr ⟨_, rfl, hall⟩

theorem Expr.comes_listProgram_iff : (exprs : List Expr) → (s s' : Engine × σ) →
    (outcome : Except Failure (List Value)) →
    (Comes library runtimes c (Expr.listProgram exprs) s outcome s' ↔
      ∃ all, Expr.EvaluatesAll library runtimes c exprs s all s' ∧ outcome = all.map adjust)
  | [], s, s', outcome => by
    rw [Expr.listProgram]
    constructor
    · rintro ⟨⟩
      exact ⟨.ok [], .nil s, rfl⟩
    · rintro ⟨_, ⟨⟩, rfl⟩
      exact .done _ s
  | [last], s, s', outcome => by
    rw [Expr.listProgram, Expr.comes_program_iff last]
    constructor
    · intro h
      cases outcome with
      | ok results => exact ⟨.ok [results], .cons h (.nil s'), rfl⟩
      | error failure => exact ⟨.error failure, .first h, rfl⟩
    · rintro ⟨all, h, rfl⟩
      cases h with
      | cons h hrest => cases hrest; exact h
      | first h => exact h
      | later _ hrest => cases hrest
  | expr :: expr' :: rest, s, s', outcome => by
    have hrest (s₁ s' : Engine × σ) (values : Except Failure (List Value)) :=
      Expr.comes_listProgram_iff (expr' :: rest) s₁ s' values
    rw [Expr.listProgram, Program.bind_eq, comes_bind_iff]
    · constructor
      · rintro (⟨results, s₁, h, hvalues⟩ | ⟨failure, rfl, h⟩)
        · rw [Expr.comes_program_iff expr] at h
          rw [Program.bind_eq, comes_bind_iff] at hvalues
          rcases hvalues with ⟨values, s₂, hvalues, hdone⟩ | ⟨failure, rfl, hvalues⟩
          · cases hdone
            obtain ⟨all, hall, heq⟩ := (hrest ..).mp hvalues
            cases hall with
            | cons =>
                cases heq
                exact ⟨_, .cons h (.cons ‹_› ‹_›), by rw [Except.map, adjust_cons]⟩
            | first | later => cases heq
          · obtain ⟨all, hall, heq⟩ := (hrest ..).mp hvalues
            cases all with
            | error =>
                cases heq
                exact ⟨_, .later h hall, rfl⟩
            | ok => cases heq
        · rw [Expr.comes_program_iff expr] at h
          exact ⟨_, .first h, rfl⟩
      · rintro ⟨all, hall, rfl⟩
        cases hall with
        | @cons _ _ first results _ s₁ _ h hall =>
            refine .inl ⟨first, s₁, (Expr.comes_program_iff expr ..).mpr h, ?_⟩
            have hvalues := (hrest ..).mpr ⟨_, hall, rfl⟩
            cases hall with
            | cons =>
                rw [Except.map, adjust_cons]
                exact hvalues.bind (.done _ _)
        | first h => exact .inr ⟨_, rfl, (Expr.comes_program_iff expr ..).mpr h⟩
        | @later _ _ first failure _ s₁ _ h hall =>
            refine .inl ⟨first, s₁, (Expr.comes_program_iff expr ..).mpr h, ?_⟩
            exact ((hrest ..).mpr ⟨_, hall, rfl⟩).bind_error _
    · simp

end

/-- An expression is part of another one. -/
inductive Expr.PartOf : Expr → Expr → Prop where
  | refl (expr : Expr) : Expr.PartOf expr expr
  | call {part argument : Expr} {function : String} {arguments : List Expr}
      (hmem : argument ∈ arguments) (h : part.PartOf argument) :
      Expr.PartOf part (.call function arguments)
  | method {part argument : Expr} {receiver name : String} {arguments : List Expr}
      (hmem : argument ∈ arguments) (h : part.PartOf argument) :
      Expr.PartOf part (.method receiver name arguments)

/-- An expression is part of one of these. -/
def Expr.PartOfAny (part : Expr) (exprs : List Expr) : Prop :=
  ∃ expr ∈ exprs, part.PartOf expr

/-- A call that is part of the expressions is run on its own. -/
inductive Expr.CallStep {σ : Type} (library : Library) (runtimes : Runtimes σ) (c : ContextId)
    (exprs : List Expr) : Engine × σ → Engine × σ → Prop where
  | call {function : String} {arguments : List Expr} {values : List Value} {s s' : Engine × σ}
      {outcome : Except Failure (List Value)}
      (hpart : (Expr.call function arguments).PartOfAny exprs)
      (h : (Execution.invoke library c function values).ComesTo library runtimes s outcome s') :
      Expr.CallStep library runtimes c exprs s s'
  | method {receiver name : String} {arguments : List Expr} {values : List Value}
      {s s' : Engine × σ} {outcome : Except Failure (List Value)}
      (hpart : (Expr.method receiver name arguments).PartOfAny exprs)
      (h : (Execution.method c receiver name values).ComesTo library runtimes s outcome s') :
      Expr.CallStep library runtimes c exprs s s'

section Calls

variable {exprs : List Expr}

open Relation

mutual

theorem Expr.Evaluates.calls : (expr : Expr) → {s s' : Engine × σ} →
    {outcome : Except Failure (List Value)} →
    expr.Evaluates library runtimes c s outcome s' →
    (∀ part : Expr, part.PartOf expr → part.PartOfAny exprs) →
    ReflTransGen (Expr.CallStep library runtimes c exprs) s s'
  | .literal _, _, _, _, h, _ => by
    cases h
    exact .refl
  | .global _, _, _, _, h, _ => by
    cases h
    exact .refl
  | .call function arguments, _, _, _, h, hparts => by
    have harguments (part : Expr) (hpart : part.PartOfAny arguments) : part.PartOfAny exprs := by
      obtain ⟨argument, hmem, hpart⟩ := hpart
      exact hparts part (.call hmem hpart)
    cases h with
    | call hall hcall =>
        exact (Expr.EvaluatesAll.calls arguments hall harguments).tail
          (.call (hparts _ (.refl _)) hcall)
    | callFails hall => exact Expr.EvaluatesAll.calls arguments hall harguments
  | .method receiver name arguments, _, _, _, h, hparts => by
    have harguments (part : Expr) (hpart : part.PartOfAny arguments) : part.PartOfAny exprs := by
      obtain ⟨argument, hmem, hpart⟩ := hpart
      exact hparts part (.method hmem hpart)
    cases h with
    | method hall hcall =>
        exact (Expr.EvaluatesAll.calls arguments hall harguments).tail
          (.method (hparts _ (.refl _)) hcall)
    | methodFails hall => exact Expr.EvaluatesAll.calls arguments hall harguments

theorem Expr.EvaluatesAll.calls : (list : List Expr) → {s s' : Engine × σ} →
    {outcome : Except Failure (List (List Value))} →
    Expr.EvaluatesAll library runtimes c list s outcome s' →
    (∀ part : Expr, part.PartOfAny list → part.PartOfAny exprs) →
    ReflTransGen (Expr.CallStep library runtimes c exprs) s s'
  | [], _, _, _, h, _ => by
    cases h
    exact .refl
  | expr :: list, _, _, _, h, hparts => by
    have hexpr (part : Expr) (hpart : part.PartOf expr) : part.PartOfAny exprs :=
      hparts part ⟨expr, List.mem_cons_self, hpart⟩
    have hlist (part : Expr) (hpart : part.PartOfAny list) : part.PartOfAny exprs := by
      obtain ⟨other, hmem, hpart⟩ := hpart
      exact hparts part ⟨other, List.mem_cons_of_mem _ hmem, hpart⟩
    cases h with
    | cons hfirst hrest =>
        exact (Expr.Evaluates.calls expr hfirst hexpr).trans
          (Expr.EvaluatesAll.calls list hrest hlist)
    | first hfirst => exact Expr.Evaluates.calls expr hfirst hexpr
    | later hfirst hrest =>
        exact (Expr.Evaluates.calls expr hfirst hexpr).trans
          (Expr.EvaluatesAll.calls list hrest hlist)

end

theorem Expr.EvaluatesAll.callSteps {outcome : Except Failure (List (List Value))}
    (h : Expr.EvaluatesAll library runtimes c exprs s outcome s') :
    ReflTransGen (Expr.CallStep library runtimes c exprs) s s' :=
  Expr.EvaluatesAll.calls exprs h fun _ hpart => hpart

end Calls

/-- A statement that is run on its own. -/
def Execution.statement (c : ContextId) (statement : Statement) : Execution :=
  ⟨c, "", statement.program.bind fun _ => .done [], [], false⟩

/-- The engine after values were assigned to targets from left to right. -/
def Engine.assign (e : Engine) (c : ContextId) (targets : List String) (values : List Value) :
    Engine :=
  e.setGlobals c ((e.globals c).setAll (resultPairs targets values))

theorem Engine.setGlobals_of_length_le {e : Engine} (h : e.contexts.length ≤ c) (g : Globals) :
    e.setGlobals c g = e := by
  rw [Engine.setGlobals, List.modify_eq_self]
  exact h

theorem Engine.assign_cons (e : Engine) (c : ContextId) (target : String) (targets : List String)
    (values : List Value) : e.assign c (target :: targets) values =
      (e.set c target (firstResult values)).assign c targets values.tail := by
  by_cases hc : c < e.contexts.length
  · rw [Engine.assign, Engine.assign, Engine.set, Engine.globals_setGlobals_self _ _ hc,
      Engine.setGlobals_setGlobals]
    rfl
  · have hlast (g : Globals) : e.setGlobals c g = e :=
      Engine.setGlobals_of_length_le (Nat.le_of_not_lt hc) g
    rw [Engine.assign, Engine.assign, Engine.set, hlast, hlast, hlast]

theorem comes_store_iff {targets : List String} {values : List Value}
    {outcome : Except Failure Unit} :
    Comes library runtimes c (Statement.store targets values) s outcome s' ↔
      outcome = .ok () ∧ s' = (s.1.assign c targets values, s.2) := by
  induction targets generalizing values s with
  | nil =>
      have hnone : s.1.assign c [] values = s.1 := Engine.setGlobals_self s.1 c
      rw [Statement.store, hnone]
      constructor
      · rintro ⟨⟩
        exact ⟨rfl, rfl⟩
      · rintro ⟨rfl, rfl⟩
        exact .done () s
  | cons target targets ih =>
      rw [Statement.store, Engine.assign_cons]
      constructor
      · intro h
        cases h with
        | act hact h =>
            cases hact
            exact ih.mp h
        | enter h | broken h => cases h
      · intro h
        exact .act rfl (ih.mpr h)

section Statement

variable (library runtimes c)

/-- A statement is carried out. The targets of an assignment are assigned after all its expressions
have been evaluated. -/
def Statement.Runs : Statement → Engine × σ → Engine × σ → Prop
  | .assign targets exprs, s, s' => ∃ results s₁,
    Expr.EvaluatesAll library runtimes c exprs s (.ok results) s₁ ∧
      s' = (s₁.1.assign c targets (adjust results), s₁.2)
  | .call expr, s, s' => ∃ results, expr.Evaluates library runtimes c s (.ok results) s'

/-- An expression of a statement fails, and nothing is done after that. -/
def Statement.Fails : Statement → Engine × σ → Failure → Engine × σ → Prop
  | .assign _ exprs, s, failure, s' =>
    Expr.EvaluatesAll library runtimes c exprs s (.error failure) s'
  | .call expr, s, failure, s' => expr.Evaluates library runtimes c s (.error failure) s'

end Statement

theorem Statement.comes_program_iff (statement : Statement) {outcome : Except Failure Unit} :
    Comes library runtimes c statement.program s outcome s' ↔
      (outcome = .ok () ∧ statement.Runs library runtimes c s s') ∨
      ∃ failure, outcome = .error failure ∧ statement.Fails library runtimes c s failure s' := by
  cases statement with
  | assign targets exprs =>
      rw [Statement.program, Program.bind_eq,
        comes_listProgram_bind_iff (Expr.comes_listProgram_iff exprs)]
      constructor
      · rintro (⟨results, s₁, hall, hstore⟩ | ⟨failure, rfl, hall⟩)
        · obtain ⟨rfl, rfl⟩ := comes_store_iff.mp hstore
          exact .inl ⟨rfl, results, s₁, hall, rfl⟩
        · exact .inr ⟨failure, rfl, hall⟩
      · rintro (⟨rfl, results, s₁, hall, rfl⟩ | ⟨failure, rfl, hall⟩)
        · exact .inl ⟨results, s₁, hall, comes_store_iff.mpr ⟨rfl, rfl⟩⟩
        · exact .inr ⟨failure, rfl, hall⟩
  | call expr =>
      rw [Statement.program, Program.bind_eq, comes_bind_iff]
      simp only [Expr.comes_program_iff]
      constructor
      · rintro (⟨results, s₁, h, hdone⟩ | ⟨failure, rfl, h⟩)
        · cases hdone
          exact .inl ⟨rfl, results, h⟩
        · exact .inr ⟨failure, rfl, h⟩
      · rintro (⟨rfl, results, h⟩ | ⟨failure, rfl, h⟩)
        · exact .inl ⟨results, s', h, .done () s'⟩
        · exact .inr ⟨failure, rfl, h⟩

theorem Execution.comesTo_statement_iff {statement : Statement} :
    (Execution.statement c statement).ComesTo library runtimes s (.ok []) s' ↔
      statement.Runs library runtimes c s s' := by
  have hcode : (statement.program.bind fun _ => Program.done ([] : List Value)).FailsScripted :=
    statement.program_scripted.bind fun _ => trivial
  rw [Execution.statement, comesTo_iff_of_scripted hcode, comes_bind_iff]
  constructor
  · rintro (⟨_, s₁, h, hdone⟩ | ⟨_, heq, -⟩)
    · cases hdone
      rcases statement.comes_program_iff.mp h with ⟨-, hruns⟩ | ⟨_, heq, -⟩
      · exact hruns
      · cases heq
    · cases heq
  · intro h
    exact .inl ⟨(), s', statement.comes_program_iff.mpr (.inl ⟨rfl, h⟩), .done [] s'⟩

theorem Expr.EvaluatesAll.length {exprs : List Expr} {results : List (List Value)}
    (h : Expr.EvaluatesAll library runtimes c exprs s (.ok results) s') :
    results.length = exprs.length := by
  induction exprs generalizing results s with
  | nil =>
      cases h
      rfl
  | cons expr exprs ih =>
      cases h with
      | cons _ hrest => rw [List.length_cons, List.length_cons, ih hrest]

theorem Engine.assigned_assign {e : Engine} (hc : c < e.contexts.length) (targets : List String)
    (results : List (List Value)) : Globals.Assigned targets (adjustedAt results) (e.globals c)
      ((e.assign c targets (adjust results)).globals c) := by
  have h := Globals.assigned_results id rfl targets (adjust results) (e.globals c)
  rw [Engine.assign, Engine.globals_setGlobals_self _ _ hc]
  simp only [id_eq, Prod.mk.eta, List.map_id'] at h
  exact h.congr fun k _ => adjust_getD results k

theorem exists_last_index {name : String} {names : List String} (h : name ∈ names) :
    ∃ k, names[k]? = some name ∧ name ∉ names.drop (k + 1) := by
  induction names with
  | nil => cases h
  | cons first names ih =>
      by_cases hmem : name ∈ names
      · obtain ⟨k, hk, hlater⟩ := ih hmem
        exact ⟨k + 1, hk, hlater⟩
      · obtain rfl : name = first := (List.mem_cons.mp h).resolve_right hmem
        exact ⟨0, rfl, hmem⟩

theorem Engine.globals_assign_of_ne (e : Engine) {d : ContextId} (h : d ≠ c)
    (targets : List String) (values : List Value) :
    (e.assign c targets values).globals d = e.globals d :=
  e.globals_setGlobals_of_ne _ h

theorem swap_runs (library : Library) (runtimes : Runtimes σ) (c : ContextId) (a b : String)
    (s : Engine × σ) : (Statement.assign [a, b] [.global b, .global a]).Runs library runtimes c s
      (s.1.assign c [a, b] [(s.1.globals c).get b, (s.1.globals c).get a], s.2) :=
  ⟨[[(s.1.globals c).get b], [(s.1.globals c).get a]], s,
    .cons (.global b s) (.cons (.global a s) (.nil s)), rfl⟩

theorem swap_unique {a b : String}
    (h : (Statement.assign [a, b] [.global b, .global a]).Runs library runtimes c s s') :
    s' = (s.1.assign c [a, b] [(s.1.globals c).get b, (s.1.globals c).get a], s.2) := by
  obtain ⟨results, s₁, hall, rfl⟩ := h
  cases hall with
  | cons hfirst hrest =>
      cases hfirst
      cases hrest with
      | cons hsecond hrest =>
          cases hsecond
          cases hrest
          rfl

theorem swap_globals {e : Engine} (hc : c < e.contexts.length) (a b : String) :
    (((e.assign c [a, b] [(e.globals c).get b, (e.globals c).get a]).globals c).get a =
      (e.globals c).get b) ∧
    (((e.assign c [a, b] [(e.globals c).get b, (e.globals c).get a]).globals c).get b =
      (e.globals c).get a) ∧
    ∀ name, name ≠ a → name ≠ b →
      ((e.assign c [a, b] [(e.globals c).get b, (e.globals c).get a]).globals c).get? name =
        (e.globals c).get? name := by
  rw [Engine.assign, Engine.globals_setGlobals_self _ _ hc]
  have hset (v u : Value) : (e.globals c).setAll (resultPairs [a, b] [v, u]) =
      ((e.globals c).set a v).set b u := rfl
  rw [hset]
  refine ⟨?_, Globals.get_set_self .., fun name ha hb => ?_⟩
  · by_cases hab : a = b
    · rw [hab, Globals.get_set_self]
    · rw [Globals.get_set_of_ne _ hab, Globals.get_set_self]
  · rw [Globals.get?_set_of_ne _ _ hb, Globals.get?_set_of_ne _ _ ha]

/-- Multiple-value adjustment. An assignment is carried out exactly if all its expressions come to
results, one after another, and then its targets are assigned from left to right and nothing else is
changed: a target gets the first result of the expression at its place, those from the last
expression on get the results of that one, and a target without a result is cleared. An expression
is evaluated with the same adjustment of the arguments of every call in it, at every depth, and only
these calls change anything before the targets are assigned. So two globals can be swapped. -/
theorem assignment_adjusts {σ : Type} (library : Library) (runtimes : Runtimes σ) (c : ContextId)
    (targets : List String) (exprs : List Expr) (s : Engine × σ) :
    (∀ s', (Execution.statement c (.assign targets exprs)).ComesTo library runtimes s (.ok []) s' ↔
      ∃ results s₁, Expr.EvaluatesAll library runtimes c exprs s (.ok results) s₁ ∧
        s' = (s₁.1.assign c targets (adjust results), s₁.2)) ∧
    (∀ results s₁, Expr.EvaluatesAll library runtimes c exprs s (.ok results) s₁ →
      c < s₁.1.contexts.length →
        Globals.Assigned targets
          (fun i => if i + 1 < exprs.length then firstResult (results.getD i [])
            else (results.getLastD []).getD (i + 1 - exprs.length) .nil)
          (s₁.1.globals c) ((s₁.1.assign c targets (adjust results)).globals c) ∧
        ∀ d ≠ c, (s₁.1.assign c targets (adjust results)).globals d = s₁.1.globals d) ∧
    (∀ outcome s₁, Expr.EvaluatesAll library runtimes c exprs s outcome s₁ →
      Relation.ReflTransGen (Expr.CallStep library runtimes c exprs) s s₁) ∧
    (exprs = [] → c < s.1.contexts.length →
      ∃ s', (Execution.statement c (.assign targets exprs)).ComesTo library runtimes s (.ok []) s' ∧
        ∀ name ∈ targets, (s'.1.globals c).get? name = none) ∧
    ∀ a b, c < s.1.contexts.length →
      ∃ e, (∀ s', (Execution.statement c (.assign [a, b] [.global b, .global a])).ComesTo library
          runtimes s (.ok []) s' ↔ s' = (e, s.2)) ∧
        (e.globals c).get a = (s.1.globals c).get b ∧
        (e.globals c).get b = (s.1.globals c).get a ∧
        ∀ name, name ≠ a → name ≠ b → (e.globals c).get? name = (s.1.globals c).get? name := by
  refine ⟨fun s' => Execution.comesTo_statement_iff, fun results s₁ hall hc => ⟨?_, ?_⟩,
    fun outcome s₁ hall => hall.callSteps, ?_, ?_⟩
  · rw [← hall.length]
    exact Engine.assigned_assign hc targets results
  · intro d hd
    exact Engine.globals_assign_of_ne s₁.1 hd targets (adjust results)
  · rintro rfl hc
    refine ⟨(s.1.assign c targets (adjust []), s.2),
      Execution.comesTo_statement_iff.mpr ⟨[], s, .nil s, rfl⟩, ?_⟩
    intro name hname
    have hassigned := Engine.assigned_assign hc targets []
    obtain ⟨k, hk, hlater⟩ := exists_last_index hname
    exact hassigned.last k name hk hlater
  · intro a b hc
    refine ⟨_, fun s' => ?_, swap_globals hc a b⟩
    refine Execution.comesTo_statement_iff.trans ⟨swap_unique, ?_⟩
    rintro rfl
    exact swap_runs library runtimes c a b s

/-- A function without results, one with two, and one that returns its arguments. -/
def plainLibrary : Library :=
  ⟨[("none", constantFunction []), ("pair", constantFunction [.string "a", .string "b"]),
    ("same", fun _ arguments => pure arguments)]⟩

/-- The statement `x, y, x = none(), same(true, pair())` in an empty context: the first value is
missing, the call in the arguments is the last there, and the last write to `x` stays. -/
theorem assignment_adjusts_nested : ∃ s', (Execution.statement 0 (.assign ["x", "y", "x"]
      [.call "none" [], .call "same" [.literal (.boolean true), .call "pair" []]])).ComesTo
        plainLibrary (.ofFunction fun _ _ (s : Unit) => (.ok 0, s))
        ((Engine.initial "plain" none).createContext.2, ()) (.ok []) s' ∧
    (s'.1.globals 0).get? "x" = some (.string "a") ∧
    (s'.1.globals 0).get? "y" = some (.boolean true) := by
  obtain ⟨hiff, hvalues, -, -, -⟩ := assignment_adjusts plainLibrary
    (.ofFunction fun _ _ (s : Unit) => (.ok 0, s)) 0 ["x", "y", "x"]
    [.call "none" [], .call "same" [.literal (.boolean true), .call "pair" []]]
    ((Engine.initial "plain" none).createContext.2, ())
  have hcalls {function : String} {arguments results : List Value} {s : Engine × Unit}
      (h : Execution.codeOf plainLibrary function arguments = .done results) :
      (Execution.invoke plainLibrary 0 function arguments).ComesTo plainLibrary
        (.ofFunction fun _ _ (s : Unit) => (.ok 0, s)) s (.ok results) s := by
    rw [Execution.invoke, h]
    exact ⟨_, ⟨0, .ends rfl⟩, rfl⟩
  have hpair : Expr.Evaluates plainLibrary (.ofFunction fun _ _ (s : Unit) => (.ok 0, s)) 0
      (.call "pair" []) ((Engine.initial "plain" none).createContext.2, ())
      (.ok [.string "a", .string "b"]) ((Engine.initial "plain" none).createContext.2, ()) :=
    .call (.nil _) (hcalls rfl)
  have hall : Expr.EvaluatesAll plainLibrary (.ofFunction fun _ _ (s : Unit) => (.ok 0, s)) 0
      [.call "none" [], .call "same" [.literal (.boolean true), .call "pair" []]]
      ((Engine.initial "plain" none).createContext.2, ())
      (.ok [[], [.boolean true, .string "a", .string "b"]])
      ((Engine.initial "plain" none).createContext.2, ()) :=
    .cons (.call (.nil _) (hcalls rfl))
      (.cons (.call (.cons (.literal _ _) (.cons hpair (.nil _))) (hcalls rfl)) (.nil _))
  obtain ⟨hassigned, -⟩ := hvalues _ _ hall (by decide)
  refine ⟨_, (hiff _).mpr ⟨_, _, hall, rfl⟩, ?_, ?_⟩
  · exact hassigned.last 2 "x" rfl (by decide)
  · exact hassigned.last 1 "y" rfl (by decide)

end ScriptPool
