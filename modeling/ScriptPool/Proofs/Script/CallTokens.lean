import ScriptPool.Proofs.Script.CallGrammar
import ScriptPool.Proofs.Token.Spacing

namespace ScriptPool

/-- The token that an argument is written as: a name for a global, a literal for its value. -/
inductive Argument.WrittenAs : Argument → Token → Prop where
  | global (name : String) : WrittenAs (.global name) (.name name)
  | number (n : Number.Double) : WrittenAs (.literal (.number n)) (.number n)
  | string (s : String) : WrittenAs (.literal (.string s)) (.string s)
  | nil : WrittenAs (.literal .nil) .nil
  | boolean (b : Bool) : WrittenAs (.literal (.boolean b)) (.boolean b)

/-- The name that a token is. -/
def Token.name? : Token → Option String
  | .name n => some n
  | _ => none

/-- Tokens with commas between them. -/
def Token.listed (ts : List Token) : List Token :=
  ts.intersperse .comma

/-- The names that receive the results, and the equals sign, which is there only behind a name. -/
def Call.returnTokens (returns : List String) : List Token :=
  if returns = [] then [] else Token.listed (returns.map Token.name) ++ [.equals]

/-- The tokens of a call, with those of its arguments given. -/
structure Call.WrittenAs (call : Call) (atoms ts : List Token) : Prop where
  arguments : List.Forall₂ Argument.WrittenAs call.arguments atoms
  tokens : ts = returnTokens call.returns ++
    .name call.function :: .opening :: (Token.listed atoms ++ [.closing])

/-- What the tokens of a call say: all of it but the text. -/
def Call.parts (call : Call) : String × List Argument × List String :=
  (call.function, call.arguments, call.returns)

variable {text other f : String} {call : Call} {a : Argument} {arguments : List Argument}
  {t : Token} {ts atoms after names : List Token} {returns : List String}

theorem Token.listed_cons (t : Token) (h : ts ≠ []) : listed (t :: ts) = t :: .comma :: listed ts := by
  cases ts with
  | nil => exact absurd rfl h
  | cons => rfl

theorem Argument.ofToken?_eq_some_iff : ofToken? t = some a ↔ a.WrittenAs t := by
  constructor
  · intro h
    cases t with
    | name | number | string | nil | boolean =>
        cases h
        constructor
    | opening | closing | comma | equals | colon => cases h
  · intro h
    cases h with
    | global | number | string | nil | boolean => rfl

theorem Argument.WrittenAs.global?_eq (h : a.WrittenAs t) : a.global? = t.name? := by
  cases h with
  | global | number | string | nil | boolean => rfl

theorem Argument.commas_iff : Commas arguments ts ↔
    arguments ≠ [] ∧ ∃ atoms, List.Forall₂ WrittenAs arguments atoms ∧ ts = Token.listed atoms := by
  constructor
  · intro h
    induction h with
    | last h => exact ⟨nofun, _, .cons (ofToken?_eq_some_iff.mp h) .nil, rfl⟩
    | cons h hrest ih =>
        obtain ⟨hne, atoms, hatoms, rfl⟩ := ih
        refine ⟨nofun, _, .cons (ofToken?_eq_some_iff.mp h) hatoms, ?_⟩
        rw [Token.listed_cons _ fun hnil => hne (by cases hnil; cases hatoms; rfl)]
  · rintro ⟨hne, atoms, hatoms, rfl⟩
    induction hatoms with
    | nil => exact absurd rfl hne
    | cons h hatoms ih =>
        have hread := ofToken?_eq_some_iff.mpr h
        cases hatoms with
        | nil => exact .last hread
        | cons h' hatoms => exact .cons hread (ih nofun)

theorem Statement.names_iff : Names returns names ↔
    returns ≠ [] ∧ names = Token.listed (returns.map Token.name) := by
  constructor
  · intro h
    induction h with
    | last n => exact ⟨nofun, rfl⟩
    | cons n _ ih =>
        obtain ⟨hne, rfl⟩ := ih
        refine ⟨nofun, ?_⟩
        rw [List.map_cons, Token.listed_cons _ fun hnil => hne (List.map_eq_nil_iff.mp hnil)]
  · rintro ⟨hne, rfl⟩
    induction returns with
    | nil => exact absurd rfl hne
    | cons n returns ih =>
        cases returns with
        | nil => exact .last n
        | cons n' returns => exact .cons n (ih nofun)

namespace Call

theorem applies_iff : Applies f arguments ts ↔ ∃ atoms,
    List.Forall₂ Argument.WrittenAs arguments atoms ∧
      ts = .name f :: .opening :: (Token.listed atoms ++ [.closing]) := by
  constructor
  · intro h
    cases h with
    | none => exact ⟨[], .nil, rfl⟩
    | some h =>
        obtain ⟨-, atoms, hatoms, rfl⟩ := Argument.commas_iff.mp h
        exact ⟨atoms, hatoms, rfl⟩
  · rintro ⟨atoms, hatoms, rfl⟩
    cases harguments : arguments with
    | nil =>
        rw [harguments] at hatoms
        cases hatoms
        exact .none
    | cons a rest =>
        rw [← harguments]
        refine .some (Argument.commas_iff.mpr ⟨?_, atoms, hatoms, rfl⟩)
        rw [harguments]
        nofun

theorem derives_iff : Derives text call ts ↔ call.text = text ∧ ∃ atoms, call.WrittenAs atoms ts := by
  constructor
  · intro h
    cases h with
    | plain h =>
        obtain ⟨atoms, hatoms, rfl⟩ := applies_iff.mp h
        exact ⟨rfl, atoms, hatoms, rfl⟩
    | returns hnames h =>
        obtain ⟨hne, rfl⟩ := Statement.names_iff.mp hnames
        obtain ⟨atoms, hatoms, rfl⟩ := applies_iff.mp h
        exact ⟨rfl, atoms, hatoms, by simp [returnTokens, hne]⟩
  · rintro ⟨rfl, atoms, hatoms, rfl⟩
    have happlies : Applies call.function call.arguments _ :=
      applies_iff.mpr ⟨atoms, hatoms, rfl⟩
    obtain ⟨text, f, arguments, returns⟩ := call
    by_cases hreturns : returns = []
    · subst hreturns
      exact .plain happlies
    · have hnames := Statement.names_iff.mpr ⟨hreturns, rfl⟩
      simp only [returnTokens, if_neg hreturns, List.append_assoc, List.singleton_append]
      exact .returns hnames happlies

theorem commas_of_readArguments (h : readArguments ts = .ok (arguments, after)) :
    ∃ used, ts = used ++ .closing :: after ∧ Argument.Commas arguments used := by
  fun_induction readArguments ts generalizing arguments with
  | case1 | case2 | case4 | case6 => cases h
  | case3 t a ha more as' after' hmore ih =>
      cases h
      obtain ⟨used, rfl, hused⟩ := ih hmore
      exact ⟨t :: .comma :: used, rfl, .cons ha hused⟩
  | case5 t a ha more =>
      cases h
      exact ⟨[t], rfl, .last ha⟩

theorem applies_of_readApplication (h : readApplication ts = .ok (f, arguments, [])) :
    Applies f arguments ts := by
  unfold readApplication at h
  split at h
  · cases h
    exact .none
  · next f' rest hclosing =>
      split at h
      · next as after hread =>
          cases h
          obtain ⟨used, rfl, hused⟩ := commas_of_readArguments hread
          exact .some hused
      · cases h
  · cases h
  · cases h

theorem derives_of_ofTokens (h : ofTokens text ts = .ok call) : Derives text call ts := by
  unfold ofTokens at h
  split at h
  · cases h
  · next returns rest hreturns =>
      split at h
      · cases h
      · next f arguments happlication =>
          cases h
          have happlies := applies_of_readApplication happlication
          unfold readReturns at hreturns
          split at hreturns
          · split at hreturns
            · next names after hnames =>
                cases hreturns
                obtain ⟨used, rfl, hused⟩ :=
                  Statement.names_of_readNames (readNames_statement hnames)
                exact .returns hused happlies
            · cases hreturns
            · cases hreturns
          · cases hreturns
            exact .plain happlies
      · cases h

theorem ofTokens_eq_ok_iff : ofTokens text ts = .ok call ↔
    call.text = text ∧ ∃ atoms, call.WrittenAs atoms ts :=
  ⟨fun h => derives_iff.mp (derives_of_ofTokens h), fun h => (derives_iff.mpr h).read⟩

theorem WrittenAs.parameters (h : call.WrittenAs atoms ts) :
    call.parameters = atoms.filterMap Token.name? := by
  obtain ⟨harguments, -⟩ := h
  unfold Call.parameters
  generalize call.arguments = arguments at harguments
  induction harguments with
  | nil => rfl
  | cons hfirst _ ih => rw [List.filterMap_cons, List.filterMap_cons, ih, hfirst.global?_eq]

theorem parts_parse (text : String) : (parse text).toOption.map parts =
    (tokens text).toOption.bind fun ts => (ofTokens "" ts).toOption.map parts := by
  have hsame (ts : List Token) (text : String) : (ofTokens text ts).toOption.map parts =
      (ofTokens "" ts).toOption.map parts := by
    unfold ofTokens
    split
    · rfl
    · split
      · rfl
      · rfl
      · rfl
  unfold parse read
  cases tokens text with
  | error e => rfl
  | ok ts =>
      refine Eq.trans ?_ (hsame ts (String.ofList (Text.trim text.toList)))
      dsimp only
      cases ofTokens (String.ofList (Text.trim text.toList)) ts with
      | error | ok => rfl

end Call

theorem Token.Respaces.tokens_eq (h : Respaces text.toList other.toList) :
    (tokens other).toOption = (tokens text).toOption := by
  have hiff (ts : List Token) : tokens text = .ok ts ↔ tokens other = .ok ts := h.tokens_iff
  cases htext : tokens text with
  | ok ts => rw [(hiff ts).mp htext]
  | error e =>
      cases hother : tokens other with
      | ok ts => rw [(hiff ts).mpr hother] at htext; cases htext
      | error e' => rfl

/-- The reader of calls accepts exactly the texts whose tokens are those of a call and of nothing
more, and takes the parts of the call from them; the text it keeps has no blanks around it. Any other
text is refused as it was given. Texts with the same tokens are read as the same call, so spacing and
comments do not matter. -/
theorem call_written_form (text : String) :
    (∀ call, Call.parse text = .ok call ↔
      call.text = String.ofList (Text.trim text.toList) ∧
        ∃ ts atoms, tokens text = .ok ts ∧ call.WrittenAs atoms ts ∧
          call.parameters = atoms.filterMap Token.name?) ∧
    (∀ e, Call.parse text = .error e → ∃ reason, e = .malformedCall text reason) ∧
    (∀ other, (tokens other).toOption = (tokens text).toOption →
      (Call.parse other).toOption.map Call.parts = (Call.parse text).toOption.map Call.parts) ∧
    ∀ other, Token.Respaces text.toList other.toList →
      (Call.parse other).toOption.map Call.parts = (Call.parse text).toOption.map Call.parts := by
  have hdetermined (other : String) (h : (tokens other).toOption = (tokens text).toOption) :
      (Call.parse other).toOption.map Call.parts = (Call.parse text).toOption.map Call.parts := by
    rw [Call.parts_parse, Call.parts_parse, h]
  refine ⟨fun call => ?_, fun e he => ?_, hdetermined, fun other h => hdetermined other h.tokens_eq⟩
  · rw [Call.parse_eq_ok_iff]
    constructor
    · rintro ⟨ts, hts, hread⟩
      obtain ⟨htext, atoms, hwritten⟩ := Call.ofTokens_eq_ok_iff.mp hread
      exact ⟨htext, ts, atoms, hts, hwritten, hwritten.parameters⟩
    · rintro ⟨htext, ts, atoms, hts, hwritten, -⟩
      exact ⟨ts, hts, Call.ofTokens_eq_ok_iff.mpr ⟨htext, atoms, hwritten⟩⟩
  · unfold Call.parse at he
    split at he
    · cases he
    · next fault _ =>
        cases he
        exact ⟨fault.message, rfl⟩

end ScriptPool
