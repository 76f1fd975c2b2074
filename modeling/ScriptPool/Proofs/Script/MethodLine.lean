import ScriptPool.Engine.Execution
import ScriptPool.Proofs.Script.CallLine
import ScriptPool.Proofs.Token.Spelling

namespace ScriptPool

open ScriptPool.Number ScriptPool.Text ScriptPool.Token

/-- In this state of the engine the code makes one request. Once it is accepted, the code is finished
with a result of this kind; before, it only looks around. -/
inductive Makes {α : Type} (e : Engine) (c : ContextId) (r : Request) (ends : α → Prop) :
    Program α → Prop where
  | readGlobal {name : String} {next : Option Value → Program α}
      (h : Makes e c r ends (next (e.get? c name))) :
      Makes e c r ends (.perform (.readGlobal name) next)
  | findRuntime {next : Bool → Program α} (h : Makes e c r ends (next (e.runtime? c).isSome)) :
      Makes e c r ends (.perform .findRuntime next)
  | request {next : Reply → Program α} (h : ∀ n, ∃ a, ends a ∧ next (.ok n) = .done a) :
      Makes e c r ends (.perform (.request r) next)

namespace Makes

variable {α β : Type} {e : Engine} {c : ContextId} {r : Request} {ends : α → Prop} {p : Program α}

theorem bind {f : α → Program β} {ends' : β → Prop} (h : Makes e c r ends p)
    (hf : ∀ a, ends a → ∃ b, ends' b ∧ f a = .done b) : Makes e c r ends' (p.bind f) := by
  induction h with
  | readGlobal _ ih => exact .readGlobal ih
  | findRuntime _ ih => exact .findRuntime ih
  | request h =>
      refine .request fun n => ?_
      obtain ⟨a, ha, hnext⟩ := h n
      rw [hnext]
      exact hf a ha

theorem mapError {f : ScriptError → ScriptError} (h : Makes e c r ends p) :
    Makes e c r ends (p.mapError f) := by
  induction h with
  | readGlobal _ ih => exact .readGlobal ih
  | findRuntime _ ih => exact .findRuntime ih
  | request h =>
      refine .request fun n => ?_
      obtain ⟨a, ha, hnext⟩ := h n
      exact ⟨a, ha, by rw [hnext]; rfl⟩

theorem run {σ : Type} {code : Program (List Value)} {ends : List Value → Prop}
    (h : Makes e c r ends code) (library : Library) (respond : RuntimeId → Request → σ → Reply × σ)
    {runtime : RuntimeId} (hruntime : e.runtime? c = some runtime) {s : σ} {n : Nat}
    (haccepted : (respond runtime r s).1 = .ok n) (function : String) :
    ∃ fuel results, ends results ∧
      Execution.run library respond fuel ⟨c, function, code, [], false⟩ e s =
        some (.returned (.completed results), e, (respond runtime r s).2) := by
  induction h with
  | readGlobal _ ih =>
      obtain ⟨fuel, results, hends, hrun⟩ := ih
      exact ⟨fuel + 1, results, hends, hrun⟩
  | findRuntime _ ih =>
      obtain ⟨fuel, results, hends, hrun⟩ := ih
      exact ⟨fuel + 1, results, hends, hrun⟩
  | request h =>
      obtain ⟨results, hends, hnext⟩ := h n
      refine ⟨2, results, hends, ?_⟩
      simp [Execution.run, Execution.step, hruntime, Execution.answer, Execution.withCode, haccepted,
        hnext, Execution.leave]

end Makes

/-- The request that a method makes with these arguments. -/
inductive Requests : (method : String) → List Value → Request → Prop where
  | parallel (text : String) : Requests "parallel" [.string text] (.parallel text)
  | join (function : String) : Requests "join" [.string function] (.join function)
  | joinAll : Requests "joinall" [] .joinAll
  | acquire (id : Value) : Requests "acquire" [id] (.acquire id)
  | release (id : Value) : Requests "release" [id] (.release id)
  | resize {n : Double} {count : Nat} (h : n.count? = some count) :
      Requests "np" [.number n] (.resize count)

variable {e : Engine} {c : ContextId} {receiver : String} {handle : Handle}

theorem makes_request (r : Request) :
    Makes e c r (fun _ => True) (callMethod.request r) :=
  .request fun _ => ⟨[], trivial, rfl⟩

theorem makes_callMethod {method : String} {arguments : List Value} {r : Request}
    (h : Requests method arguments r) (hreceiver : e.get? c receiver = some (.handle handle))
    (hobject : handle.object = .coordinator) (hruntime : (e.runtime? c).isSome = true) :
    Makes e c r (fun _ => True) (callMethod receiver method arguments) := by
  have hcoordinator : (Value.handle handle).asHandle?.any (·.object = .coordinator) = true := by
    simp [Value.asHandle?, hobject]
  unfold callMethod
  refine .readGlobal ?_
  rw [hreceiver, Program.done_bind, Option.getD_some, if_neg (by simp [hcoordinator])]
  refine .findRuntime ?_
  rw [hruntime, Program.done_bind, if_neg (by decide)]
  cases h with
  | parallel text => exact makes_request _
  | join function => exact makes_request _
  | joinAll => exact makes_request _
  | acquire id => exact makes_request _
  | release id => exact makes_request _
  | @resize n count h =>
      simp only [firstResult, List.head?_cons, Option.getD_some, Value.isTruthy, if_true,
        Value.asCount?, h]
      exact .request fun size => ⟨[Value.ofCount size], trivial, rfl⟩

/-- The method call as an expression; its arguments are literals. -/
def Expr.methodCall (receiver method : String) (arguments : List Value) : Expr :=
  .method receiver method (arguments.map .literal)

theorem Expr.listProgram_literals (values : List Value) :
    Expr.listProgram (values.map .literal) = .done values := by
  induction values with
  | nil => rw [List.map_nil, Expr.listProgram, Program.pure_eq]
  | cons value values ih =>
      cases values with
      | nil => rw [List.map_singleton, Expr.listProgram, Expr.program, Program.pure_eq]
      | cons value' values =>
          rw [List.map_cons, Expr.listProgram, ih, Expr.program]
          · rfl
          · simp

theorem makes_chunk {method name : String} {arguments : List Value} {r : Request} {number : Nat}
    (h : Requests method arguments r) (hreceiver : e.get? c receiver = some (.handle handle))
    (hobject : handle.object = .coordinator) (hruntime : (e.runtime? c).isSome = true) :
    Makes e c r (fun _ => True)
      (Chunk.program ⟨name, [(number, .call (.methodCall receiver method arguments))]⟩) := by
  have hcall : Makes e c r (fun _ => True)
      (Expr.methodCall receiver method arguments).program := by
    rw [Expr.methodCall, Expr.program, Expr.listProgram_literals]
    exact makes_callMethod h hreceiver hobject hruntime
  have hstatement : Makes e c r (fun _ => True)
      (Statement.call (.methodCall receiver method arguments)).program :=
    hcall.bind fun _ _ => ⟨(), trivial, rfl⟩
  exact hstatement.mapError.bind fun _ _ => ⟨(), trivial, rfl⟩

/-- The text is one statement, and wherever the receiver is a coordinator handle and the runtime of
the context accepts the request, running the text makes the request, once, and leaves the engine as it
is. -/
structure Performs (receiver text : String) (r : Request) : Prop where
  single : ∃ number statement, ∀ name, Chunk.parse name text = .ok ⟨name, [(number, statement)]⟩
  runs : ∀ {σ : Type} (library : Library) (respond : RuntimeId → Request → σ → Reply × σ)
    {e : Engine} {c : ContextId} {runtime : RuntimeId} {handle : Handle} {s : σ} {n : Nat}
    (chunk : String), e.get? c receiver = some (.handle handle) → handle.object = .coordinator →
    e.runtime? c = some runtime → (respond runtime r s).1 = .ok n →
    ∃ fuel, Execution.run library respond fuel (Execution.load c chunk text) e s =
      some (.returned (.completed []), e, (respond runtime r s).2)

theorem performs_of_parse {method text : String} {arguments : List Value} {r : Request} {number : Nat}
    (h : Requests method arguments r) (hparse : ∀ name, Chunk.parse name text =
      .ok ⟨name, [(number, .call (.methodCall receiver method arguments))]⟩) :
    Performs receiver text r := by
  refine ⟨⟨number, _, hparse⟩, ?_⟩
  intro σ library respond e c runtime handle s n chunk hreceiver hobject hruntime haccepted
  have hload : Makes e c r (· = []) (Execution.loadCode chunk text) := by
    rw [Execution.loadCode, hparse]
    exact (makes_chunk h hreceiver hobject (by rw [hruntime]; rfl)).bind fun _ _ => ⟨[], rfl, rfl⟩
  obtain ⟨fuel, results, rfl, hrun⟩ := hload.run library respond hruntime haccepted ""
  exact ⟨fuel, hrun⟩

/-- The written arguments of a method: none, a literal or a global. -/
inductive WritesArguments : (text : String) → List Token → List Expr → Prop where
  | none : WritesArguments "" [] []
  | literal {text : String} {t : Token} {v : Value} (hliteral : t.literal? = some v)
      (hspells : Spells text.toList t) : WritesArguments text [t] [.literal v]
  | global {name : String} (hname : isName name = true) :
      WritesArguments name [.name name] [.global name]

theorem ofTokens_methodCall {method text : String} {ts : List Token} {arguments : List Expr}
    (hlocal : receiver ≠ "local") (harguments : WritesArguments text ts arguments) :
    Statement.ofTokens (.name receiver :: .colon :: .name method :: .opening :: (ts ++ [.closing])) =
      .ok (.call (.method receiver method arguments)) := by
  have hpart (rest : List Token) : Statement.readPart (.name receiver :: rest) =
      if .equals ∈ Token.name receiver :: rest then
        Statement.readAssignment false (.name receiver :: rest)
      else Statement.readCall (.name receiver :: rest) := by
    unfold Statement.readPart
    split
    · next heq =>
        cases heq
        exact absurd rfl hlocal
    · rfl
  cases harguments with
  | none =>
      rw [Statement.ofTokens, hpart, if_neg (by simp)]
      rfl
  | @literal text t v hliteral hspells =>
      have hequals : t ≠ .equals := by
        rintro rfl
        cases hliteral
      rw [Statement.ofTokens, hpart, if_neg (by simp [Ne.symm hequals])]
      cases t with
      | number | string | nil | boolean =>
          cases hliteral
          rfl
      | name | opening | closing | comma | equals | colon => cases hliteral
  | global =>
      rw [Statement.ofTokens, hpart, if_neg (by simp)]
      rfl

/-- The text of a method call. -/
def callText (receiver method arguments : String) : List Char :=
  receiver.toList ++ ':' :: (method.toList ++ '(' :: (arguments.toList ++ [')']))

theorem stops_punctuation {d : Char} (hd : d = ':' ∨ d = '(' ∨ d = ')') (rest : List Char) :
    Stops (d :: rest) := by
  rintro c hc
  cases hc
  rcases hd with rfl | rfl | rfl
  · decide
  · decide
  · decide

section Line

variable {method text : String} {ts : List Token} {arguments : List Expr}

theorem readAll_callText (hreceiver : isName receiver = true) (hmethod : isName method = true)
    (text : String) (column : Nat) : ∃ column', Token.readAll column (callText receiver method text) =
      (Token.readAll column' (text.toList ++ [')'])).map fun ts =>
        .name receiver :: .colon :: .name method :: .opening :: ts := by
  obtain ⟨column₁, h₁⟩ := spells_name hreceiver (stops_punctuation (.inl rfl)
    (method.toList ++ '(' :: (text.toList ++ [')']))) column
  obtain ⟨column₂, h₂⟩ := readsFirst_colon (method.toList ++ '(' :: (text.toList ++ [')'])) column₁
  obtain ⟨column₃, h₃⟩ := spells_name hmethod (stops_punctuation (.inr (.inl rfl))
    (text.toList ++ [')'])) column₂
  obtain ⟨column₄, h₄⟩ := readsFirst_opening (text.toList ++ [')']) column₃
  refine ⟨column₄, ?_⟩
  rw [callText, h₁, h₂, h₃, h₄]
  cases Token.readAll column₄ (text.toList ++ [')']) with
  | error | ok => rfl

theorem readAll_arguments (harguments : WritesArguments text ts arguments) (column : Nat) :
    Token.readAll column (text.toList ++ [')']) = .ok (ts ++ [.closing]) := by
  have hend : ∀ column, Token.readAll column [')'] = .ok [.closing] :=
    (readsFirst_closing []).ok fun column => by rw [Token.readAll]
  have hstops : Stops [')'] := stops_punctuation (.inr (.inr rfl)) []
  cases harguments with
  | none => exact hend column
  | literal hliteral hspells => exact (hspells hstops).ok hend column
  | global hname => exact (spells_name hname hstops).ok hend column

theorem ofLine?_callText (hreceiver : isName receiver = true) (hlocal : receiver ≠ "local")
    (hmethod : isName method = true) (harguments : WritesArguments text ts arguments)
    {blanks : List Char} (hblanks : ∀ c ∈ blanks, isBlank c = true) :
    Statement.ofLine? (blanks ++ callText receiver method text) =
      .ok (some (.call (.method receiver method arguments))) := by
  obtain ⟨column, hread⟩ := readAll_blanks hblanks (callText receiver method text) 1
  obtain ⟨column', hcall⟩ := readAll_callText hreceiver hmethod text column
  rw [hcall, readAll_arguments harguments] at hread
  simp only [Statement.ofLine?, hread, Except.map, ofTokens_methodCall hlocal harguments]

end Line

theorem ofLine?_blanks {blanks : List Char} (h : ∀ c ∈ blanks, isBlank c = true) :
    Statement.ofLine? blanks = .ok none := by
  obtain ⟨column, hread⟩ := readAll_blanks h [] 1
  rw [List.append_nil, Token.readAll] at hread
  simp only [Statement.ofLine?, hread]

theorem readLines_indented {indent body : List Char} (first : List Char) (hbody : '\n' ∉ body)
    (hne : body ≠ []) (hfirst : '\n' ∉ first)
    (hblank : ∀ c ∈ first ++ indent, isBlank c = true) (number : Nat) :
    ∃ k blanks, (∀ c ∈ blanks, isBlank c = true) ∧ ∀ name,
      Chunk.readLines name number (Text.lines (first ++ indent ++ body)) =
        Chunk.readLines name k [blanks ++ body] := by
  induction indent generalizing first number with
  | nil =>
      rw [List.append_nil] at hblank ⊢
      refine ⟨number, first, hblank, fun name => ?_⟩
      have hlast : Text.lines (first ++ body) = [first ++ body] := by
        simp [Text.lines, Text.pieces_of_not_mem, hfirst, hbody, Text.finishLines, hne]
      rw [hlast]
  | cons c indent ih =>
      by_cases hc : c = '\n'
      · subst hc
        obtain ⟨k, blanks, hblanks, hk⟩ := ih [] List.not_mem_nil
          (fun c hc => hblank c (by simp at hc ⊢; exact .inr (.inr hc))) (number + 1)
        refine ⟨k, blanks, hblanks, fun name => ?_⟩
        have hdrop : ∀ c ∈ dropReturn first, isBlank c = true := by
          intro c hc
          apply hblank c
          unfold dropReturn at hc
          split at hc
          · exact List.mem_append_left _ ((List.dropLast_subset first) hc)
          · exact List.mem_append_left _ hc
        have hk := hk name
        rw [List.nil_append] at hk
        rw [List.append_assoc, List.cons_append, Text.lines_append hfirst, Chunk.readLines,
          ofLine?_blanks hdrop, hk]
        cases Chunk.readLines name k [blanks ++ body] with
        | error | ok => rfl
      · obtain ⟨k, blanks, hblanks, hk⟩ := ih (first ++ [c])
          (by simp [hfirst, Ne.symm hc]) (by simpa using hblank) number
        exact ⟨k, blanks, hblanks, fun name => by simpa using hk name⟩

section Line

variable {method text : String} {indent : List Char} (hreceiver : isName receiver = true)
  (hmethod : isName method = true) (htext : '\n' ∉ text.toList)
  (hindent : ∀ c ∈ indent, isBlank c = true)
include hreceiver hmethod htext hindent

theorem readLines_callText : ∃ k blanks, (∀ c ∈ blanks, isBlank c = true) ∧ ∀ name,
    Chunk.readLines name 1 (Text.lines (indent ++ callText receiver method text)) =
      Chunk.readLines name k [blanks ++ callText receiver method text] := by
  have hname {s : String} (h : isName s = true) : '\n' ∉ s.toList := by
    obtain ⟨c, cs, hlist, hstart, hcontinue, -⟩ := isName_cons h
    rw [hlist, List.mem_cons]
    rintro (rfl | hmem)
    · cases hstart
    · exact absurd (hcontinue _ hmem) (by decide)
  have hsingle : '\n' ∉ callText receiver method text := by
    simp [callText, hname hreceiver, hname hmethod, htext]
  exact readLines_indented [] hsingle (by simp [callText]) List.not_mem_nil hindent 1

theorem parse_callText {ts : List Token} {arguments : List Expr} (hlocal : receiver ≠ "local")
    (harguments : WritesArguments text ts arguments) : ∃ number, ∀ name,
    Chunk.parse name (String.ofList (indent ++ callText receiver method text)) =
      .ok ⟨name, [(number, .call (.method receiver method arguments))]⟩ := by
  obtain ⟨k, blanks, hblanks, hread⟩ := readLines_callText hreceiver hmethod htext hindent
  refine ⟨k, fun name => ?_⟩
  rw [Chunk.parse, String.toList_ofList, hread, Chunk.readLines,
    ofLine?_callText hreceiver hlocal hmethod harguments hblanks]
  rfl

theorem parse_callText_fails (harguments : ∀ column, ∃ e,
    Token.readAll column (text.toList ++ [')']) = .error e) (name : String) :
    ∃ e, Chunk.parse name (String.ofList (indent ++ callText receiver method text)) = .error e := by
  obtain ⟨k, blanks, hblanks, hread⟩ := readLines_callText hreceiver hmethod htext hindent
  obtain ⟨column, hline⟩ := readAll_blanks hblanks (callText receiver method text) 1
  obtain ⟨column', hcall⟩ := readAll_callText hreceiver hmethod text column
  obtain ⟨e, he⟩ := harguments column'
  rw [hcall, he] at hline
  refine ⟨.load name k (StatementFault.lexical e).message, ?_⟩
  simp only [Chunk.parse, String.toList_ofList, hread, Chunk.readLines, Statement.ofLine?, hline,
    Except.map]

theorem performs_of_line {ts : List Token} {arguments : List Value} {r : Request}
    (hlocal : receiver ≠ "local") (harguments : WritesArguments text ts (arguments.map .literal))
    (h : Requests method arguments r) :
    Performs receiver (String.ofList (indent ++ callText receiver method text)) r := by
  obtain ⟨number, hparse⟩ := parse_callText hreceiver hmethod htext hindent hlocal harguments
  exact performs_of_parse h hparse

end Line

end ScriptPool
