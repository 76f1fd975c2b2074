import ScriptPool.Proofs.Engine.Tame
import ScriptPool.Proofs.Engine.Writes
import ScriptPool.Proofs.Script.CallLine
import ScriptPool.Proofs.Value.Plain

namespace ScriptPool

/-- The code comes to its result and changes the globals of its context. -/
inductive Does (library : Library) {α : Type} : Globals → Program α → α → Globals → Prop where
  | done (g : Globals) (a : α) : Does library g (.done a) a g
  | readGlobal {g g' : Globals} {a : α} (name : String) {next : Option Value → Program α}
      (h : Does library g (next (g.get? name)) a g') :
      Does library g (.perform (.readGlobal name) next) a g'
  | writeGlobal {g g' : Globals} {a : α} (name : String) (value : Value) {next : Unit → Program α}
      (h : Does library (g.set name value) (next ()) a g') :
      Does library g (.perform (.writeGlobal name value) next) a g'
  | call {g g' : Globals} {a : α} {function : String} {f : HostFunction} {arguments results : List Value}
      {next : Except ScriptError (List Value) → Program α} (hf : library.find? function = some f)
      (hcall : Tame library g (.ok results) (f function arguments))
      (h : Does library g (next (.ok results)) a g') :
      Does library g (.perform (.call function arguments) next) a g'

namespace Does

variable {library : Library} {α β : Type} {g g' g'' : Globals} {p : Program α} {a : α}

theorem bind {k : α → Program β} {b : β} (h : Does library g p a g')
    (hk : Does library g' (k a) b g'') : Does library g (p.bind k) b g'' := by
  induction h with
  | done => exact hk
  | readGlobal name _ ih => exact .readGlobal name (ih hk)
  | writeGlobal name value _ ih => exact .writeGlobal name value (ih hk)
  | call hf hcall _ ih => exact .call hf hcall (ih hk)

theorem mapError (h : Does library g p a g') (f : ScriptError → ScriptError) :
    Does library g (p.mapError f) a g' := by
  induction h with
  | done g a => exact .done g a
  | readGlobal name _ ih => exact .readGlobal name ih
  | writeGlobal name value _ ih => exact .writeGlobal name value ih
  | call hf hcall _ ih => exact .call hf hcall ih

theorem goes {code : Program (List Value)} {results : List Value}
    (h : Does library g code results g') {c : ContextId} {function : String} {suspended : Bool}
    {e : Engine} (hg : e.globals c = g) (hc : c < e.contexts.length)
    (hopen : e.board.isOpenHouse = true) {σ : Type}
    (respond : RuntimeId → Request → σ → Reply × σ) (s : σ) :
    ∃ e' s', Execution.Goes library respond ⟨c, function, code, [], suspended⟩ e s
      ⟨c, function, .done results, [], suspended⟩ e' s' ∧ e'.globals c = g' := by
  induction h generalizing e s with
  | done g results => exact ⟨e, s, .refl _ _ _, hg⟩
  | readGlobal name _ ih =>
      subst hg
      obtain ⟨e', s', hgoes, he'⟩ := ih rfl hc hopen s
      exact ⟨e', s', .step rfl hgoes, he'⟩
  | writeGlobal name value _ ih =>
      subst hg
      have hlength : (e.set c name value).contexts.length = e.contexts.length := by
        simp [Engine.set, Engine.setGlobals]
      obtain ⟨e', s', hgoes, he'⟩ := ih (e := e.set c name value)
        (Engine.globals_setGlobals_self e _ hc) (hlength ▸ hc) hopen s
      exact ⟨e', s', .step rfl hgoes, he'⟩
  | @call g g' results function' f arguments inner next hf hcall _ ih =>
      obtain ⟨e₁, s₁, hgoes₁, he₁⟩ :=
        hcall.goes trivial respond s function suspended (.call function' next) [] hg hopen
      obtain ⟨e₂, s₂, hgoes₂, he₂⟩ := ih ((Engine.globals_of_contexts he₁.contexts_eq c).trans hg)
        (he₁.contexts_eq ▸ hc) he₁.isOpenHouse s₁
      refine ⟨e₂, s₂, .step ?_ (hgoes₁.trans hgoes₂), he₂⟩
      simp [Execution.step, hf]

end Does

def Argument.valueIn (g : Globals) : Argument → Value
  | .global name => g.get name
  | .literal value => value

def Call.argumentsIn (call : Call) (g : Globals) : List Value :=
  call.arguments.map (Argument.valueIn g)

/-- The function neither fails nor breaks off on values without handles, and its results are values
without handles that depend on its arguments alone. It writes no global and makes no request. -/
def Library.Answers (library : Library) (function : String) (answer : List Value → List Value) :
    Prop :=
  ∃ f, library.find? function = some f ∧ ∀ arguments : List Value, (∀ v ∈ arguments, v.Plain) →
    (∀ g, Tame library g (.ok (answer arguments)) (f function arguments)) ∧
      ∀ v ∈ answer arguments, v.Plain

/-- What a call writes if its arguments are read from some globals. -/
def Call.writesIn (call : Call) (answer : List Value → List Value) (g : Globals) :
    List (String × Value) :=
  resultPairs call.returns (answer (call.argumentsIn g))

section Call

variable {library : Library} {g : Globals} {call : Call} {answer : List Value → List Value}

theorem Argument.expr_does (a : Argument) :
    Does library g a.expr.program [a.valueIn g] g := by
  cases a with
  | global name => exact .readGlobal name (.done g _)
  | literal value => exact .done g _

theorem Call.argumentsIn_does (as : List Argument) :
    Does library g (Expr.listProgram (as.map Argument.expr)) (as.map (Argument.valueIn g)) g := by
  induction as with
  | nil => exact .done g []
  | cons a as ih =>
      cases as with
      | nil => exact a.expr_does
      | cons a' as => exact a.expr_does.bind (ih.bind (.done g _))

theorem Statement.store_does (targets : List String) (results : List Value) :
    Does library g (Statement.store targets results) () (g.setAll (resultPairs targets results)) := by
  induction targets generalizing g results with
  | nil => exact .done g ()
  | cons target targets ih => exact .writeGlobal target _ (ih results.tail)

theorem Call.argumentsIn_plain (hg : g.Plain) (hcall : call.Plain) :
    ∀ v ∈ call.argumentsIn g, v.Plain := by
  intro v hv
  obtain ⟨a, ha, rfl⟩ := List.mem_map.mp hv
  cases a with
  | global name => exact hg.get name
  | literal value => exact hcall value ha

theorem Call.statement_does (hanswer : library.Answers call.function answer) (hg : g.Plain)
    (hcall : call.Plain) :
    Does library g call.statement.program () (g.setAll (call.writesIn answer g)) := by
  obtain ⟨f, hf, hanswer⟩ := hanswer
  have hexpr : Does library g call.expr.program (answer (call.argumentsIn g)) g :=
    (Call.argumentsIn_does call.arguments).bind
      (.call hf ((hanswer _ (Call.argumentsIn_plain hg hcall)).1 g) (.done g _))
  unfold Call.statement Call.writesIn
  split
  · next hnone =>
      rw [List.isEmpty_iff.mp hnone]
      exact hexpr.bind (.done g ())
  · exact hexpr.bind (Statement.store_does _ _)

theorem Call.writesIn_plain (hanswer : library.Answers call.function answer) (hg : g.Plain)
    (hcall : call.Plain) : ∀ pair ∈ call.writesIn answer g, pair.2.Plain := by
  obtain ⟨f, -, hanswer⟩ := hanswer
  exact resultPairs_plain (hanswer _ (argumentsIn_plain hg hcall)).2

end Call

/-- The globals after some calls, each of which reads what the calls before it wrote. -/
def Globals.afterCalls (answer : String → List Value → List Value) : Globals → List Call → Globals
  | g, [] => g
  | g, call :: calls =>
    (g.setAll (call.writesIn (answer call.function) g)).afterCalls answer calls

/-- What all calls write if all of them read the same globals. -/
def writesOf (answer : String → List Value → List Value) (g : Globals) (calls : List Call) :
    List (String × Value) :=
  calls.flatMap fun call => call.writesIn (answer call.function) g

/-- Calls that do not get in each other's way: they write different globals, and neither reads what
the other one writes. -/
structure Call.Apart (a b : Call) : Prop where
  returns : ∀ name ∈ a.returns, name ∉ b.returns
  parameters : ∀ name ∈ a.parameters, name ∉ b.returns
  parameters' : ∀ name ∈ b.parameters, name ∉ a.returns

theorem Call.Apart.symm {a b : Call} (h : a.Apart b) : b.Apart a where
  returns := fun name hb ha => h.returns name ha hb
  parameters := h.parameters'
  parameters' := h.parameters

/-- Calls of functions that answer, without handles among their literals. -/
structure Call.Answered (library : Library) (answer : String → List Value → List Value)
    (call : Call) : Prop where
  plain : call.Plain
  answers : library.Answers call.function (answer call.function)

section Calls

variable {library : Library} {answer : String → List Value → List Value} {g g₀ : Globals}
  {calls : List Call}

theorem Chunk.runLines_does {lines : List (Nat × Statement)} {name : String}
    (h : ∀ call ∈ calls, call.Answered library answer)
    (hlines : lines.map Prod.snd = calls.map Call.statement) (hg : g.Plain) :
    Does library g (Chunk.runLines name lines) () (g.afterCalls answer calls) := by
  induction calls generalizing g lines with
  | nil =>
      rw [List.map_nil, List.map_eq_nil_iff] at hlines
      subst hlines
      exact .done g ()
  | cons call calls ih =>
      obtain ⟨⟨number, statement⟩, rest, rfl, rfl, hrest⟩ := List.map_eq_cons_iff.mp hlines
      have hcall := h call List.mem_cons_self
      have hdoes : Does library g call.statement.program ()
          (g.setAll (call.writesIn (answer call.function) g)) :=
        Call.statement_does hcall.answers hg hcall.plain
      apply (hdoes.mapError _).bind
      apply ih (fun call' hcall' => h call' (List.mem_cons_of_mem _ hcall')) hrest
      exact hg.setAll (Call.writesIn_plain hcall.answers hg hcall.plain)

theorem Call.argumentsIn_congr {call : Call}
    (h : ∀ name ∈ call.parameters, g.get name = g₀.get name) :
    call.argumentsIn g = call.argumentsIn g₀ := by
  apply List.map_congr_left
  intro a ha
  cases a with
  | global name => exact h name (List.mem_filterMap.mpr ⟨_, ha, rfl⟩)
  | literal value => rfl

theorem Globals.afterCalls_get? (hapart : calls.Pairwise Call.Apart)
    (hsame : ∀ call ∈ calls, ∀ name ∈ call.parameters, g.get? name = g₀.get? name) (name : String) :
    (g.afterCalls answer calls).get? name = (g.setAll (writesOf answer g₀ calls)).get? name := by
  induction calls generalizing g with
  | nil => rfl
  | cons call calls ih =>
      rw [List.pairwise_cons] at hapart
      obtain ⟨hcall, hcalls⟩ := hapart
      have hreads : call.argumentsIn g = call.argumentsIn g₀ := by
        apply Call.argumentsIn_congr
        intro parameter hparameter
        rw [Globals.get, hsame call List.mem_cons_self parameter hparameter, Globals.get]
      have hwrites : call.writesIn (answer call.function) g =
          call.writesIn (answer call.function) g₀ := by
        rw [Call.writesIn, hreads, Call.writesIn]
      rw [Globals.afterCalls, ih hcalls, hwrites, writesOf, writesOf, List.flatMap_cons,
        Globals.setAll_append]
      intro call' hcall' parameter hparameter
      have hother : parameter ∉ (call.writesIn (answer call.function) g).map Prod.fst := by
        rw [Call.writesIn, resultPairs_names]
        exact (hcall call' hcall').parameters' parameter hparameter
      rw [Globals.get?_setAll_of_not_mem hother]
      exact hsame call' (List.mem_cons_of_mem _ hcall') parameter hparameter

theorem filter_writesOf_of_not_mem {name : String} (h : ∀ call ∈ calls, name ∉ call.returns) :
    (writesOf answer g calls).filter (·.1 = name) = [] := by
  rw [List.filter_eq_nil_iff]
  intro pair hpair hname
  obtain ⟨call, hcall, hpair⟩ := List.mem_flatMap.mp hpair
  have hmem : pair.1 ∈ (call.writesIn (answer call.function) g).map Prod.fst :=
    List.mem_map_of_mem hpair
  rw [Call.writesIn, resultPairs_names, of_decide_eq_true hname] at hmem
  exact h call hcall hmem

theorem filter_writesOf (hapart : calls.Pairwise Call.Apart) {call : Call} (hcall : call ∈ calls)
    {name : String} (hname : name ∈ call.returns) :
    (writesOf answer g calls).filter (·.1 = name) =
      (call.writesIn (answer call.function) g).filter (·.1 = name) := by
  induction calls with
  | nil => cases hcall
  | cons first calls ih =>
      rw [List.pairwise_cons] at hapart
      obtain ⟨hfirst, hapart⟩ := hapart
      have hsplit : (writesOf answer g (first :: calls)).filter (·.1 = name) =
          (writesOf answer g [first]).filter (·.1 = name) ++
            (writesOf answer g calls).filter (·.1 = name) := by
        rw [← List.filter_append]
        simp [writesOf]
      rw [hsplit]
      rcases List.mem_cons.mp hcall with rfl | hrest
      · have hnone : (writesOf answer g calls).filter (·.1 = name) = [] :=
          filter_writesOf_of_not_mem fun other hother => (hfirst other hother).returns name hname
        rw [hnone, List.append_nil, writesOf, List.flatMap_singleton]
      · have hnone : (writesOf answer g [first]).filter (·.1 = name) = [] := by
          apply filter_writesOf_of_not_mem
          intro other hother
          rw [List.mem_singleton.mp hother]
          exact (hfirst call hrest).symm.returns name hname
        rw [hnone, ih hapart hrest, List.nil_append]

/-- Where all gates are open, loading calls on the lines of a source executes them one after
another, however requests are answered. -/
theorem load_calls {texts : List String} (hlines : List.Forall₂ Call.IsLine texts calls)
    (h : ∀ call ∈ calls, call.Answered library answer) {e : Engine} {main : ContextId}
    (hmain : main < e.contexts.length) (hg : (e.globals main).Plain)
    (hopen : e.board.isOpenHouse = true) (chunk : String) {σ : Type}
    (respond : RuntimeId → Request → σ → Reply × σ) (s : σ) :
    ∃ fuel e' s',
      Execution.run library respond fuel (.load main chunk ("\n".intercalate texts)) e s =
        some (.returned (.completed []), e', s') ∧
      e'.globals main = (e.globals main).afterCalls answer calls := by
  obtain ⟨lines, hparse, hmap⟩ := Chunk.parse_calls hlines chunk
  have hcode : Execution.loadCode chunk ("\n".intercalate texts) =
      (Chunk.runLines chunk lines).bind fun _ => .done [] := by
    rw [Execution.loadCode, hparse]
    rfl
  have hdoes : Does library (e.globals main)
      (Execution.loadCode chunk ("\n".intercalate texts)) []
      ((e.globals main).afterCalls answer calls) := by
    rw [hcode]
    exact (Chunk.runLines_does h hmap hg).bind (.done _ [])
  obtain ⟨e', s', hgoes, he'⟩ := hdoes.goes (c := main) (e := e) rfl hmain hopen respond s
  obtain ⟨fuel, hrun⟩ := hgoes.run rfl
  exact ⟨fuel, e', s', hrun, he'⟩

end Calls

end ScriptPool
