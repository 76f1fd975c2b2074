import ScriptPool.Proofs.Directive.Loadable
import ScriptPool.Proofs.Script.Printing

namespace ScriptPool

open ScriptPool.Text

/-- The statement that can be derived from a line, or none if the line has no tokens. -/
def Statement.OnLine (line : List Char) : Option Statement → Prop
  | none => Token.readAll 1 line = .ok []
  | some statement => ∃ ts, Token.readAll 1 line = .ok ts ∧ statement.Reads ts

variable {line : List Char} {lines : List (List Char)} {found found' : Option Statement}
  {name : String} {number : Nat} {statement : Statement} {ts : List Token} {e : ScriptError}

theorem Statement.ofLine?_eq_ok_iff : Statement.ofLine? line = .ok found ↔ OnLine line found := by
  unfold Statement.ofLine?
  cases hread : Token.readAll 1 line with
  | error fault =>
      cases found with
      | none | some => simp [OnLine, hread]
  | ok ts =>
      cases ts with
      | nil =>
          have hempty (statement : Statement) : ¬ statement.Reads [] := fun h => h.ne_nil rfl
          cases found with
          | none | some => simp [OnLine, hread, hempty]
      | cons t ts =>
          cases htokens : ofTokens (t :: ts) with
          | error | ok =>
              cases found with
              | none | some => simp [OnLine, hread, htokens, ← ofTokens_eq_ok_iff]

theorem Statement.OnLine.unique (h : OnLine line found) (h' : OnLine line found') :
    found = found' := by
  rw [← ofLine?_eq_ok_iff] at h h'
  rw [h] at h'
  exact Except.ok.inj h'

namespace Chunk

/-- The lines can all be read, and these are their statements, in order and with the numbers of
their lines. -/
structure Holds (number : Nat) (lines : List (List Char)) (found : List (Nat × Statement)) :
    Prop where
  readable : ∀ line ∈ lines, ∃ found, Statement.OnLine line found
  increasing : found.Pairwise fun a b => a.1 < b.1
  mem_iff : ∀ k statement, (k, statement) ∈ found ↔ ∃ i line, lines[i]? = some line ∧
    k = number + i ∧ Statement.OnLine line (some statement)

/-- The first of the lines that cannot be read, behind the lines before it. -/
structure FailsFirst (lines before : List (List Char)) (line : List Char) : Prop where
  split : ∃ after, lines = before ++ line :: after
  readable : ∀ line ∈ before, ∃ found, Statement.OnLine line found
  fails : ∀ found, ¬ Statement.OnLine line found

theorem holds_nil (number : Nat) : Holds number [] [] :=
  ⟨List.forall_mem_nil _, .nil, fun k statement => by simp⟩

theorem Holds.cons {more : List (Nat × Statement)} (hline : Statement.OnLine line found)
    (h : Holds (number + 1) lines more) :
    Holds number (line :: lines) ((found.map (number, ·)).toList ++ more) := by
  refine ⟨List.forall_mem_cons.mpr ⟨⟨found, hline⟩, h.readable⟩, ?_, fun k statement => ?_⟩
  · have hlater : ∀ later ∈ more, number < later.1 := by
      intro later hmem
      obtain ⟨i, line, -, hk, -⟩ := (h.mem_iff later.1 later.2).mp hmem
      omega
    cases found with
    | none => exact h.increasing
    | some statement => exact List.pairwise_cons.mpr ⟨hlater, h.increasing⟩
  · rw [List.mem_append, h.mem_iff]
    constructor
    · rintro (hmem | ⟨i, line, hi, rfl, hreads⟩)
      · obtain ⟨found', rfl, heq⟩ := Option.map_eq_some_iff.mp (Option.mem_toList.mp hmem)
        cases heq
        exact ⟨0, line, rfl, rfl, hline⟩
      · exact ⟨i + 1, line, hi, by omega, hreads⟩
    · rintro ⟨i, line', hi, rfl, hreads⟩
      cases i with
      | zero =>
          cases hi
          rw [hline.unique hreads]
          exact .inl (by simp)
      | succ i => exact .inr ⟨i, line', hi, by omega, hreads⟩

theorem FailsFirst.cons {before : List (List Char)} {first : List Char}
    (hfirst : Statement.OnLine first found) (h : FailsFirst lines before line) :
    FailsFirst (first :: lines) (first :: before) line := by
  obtain ⟨after, rfl⟩ := h.split
  exact ⟨⟨after, rfl⟩, List.forall_mem_cons.mpr ⟨⟨found, hfirst⟩, h.readable⟩, h.fails⟩

theorem readLines_cases (name : String) (number : Nat) (lines : List (List Char)) :
    match readLines name number lines with
    | .ok found => Holds number lines found
    | .error e => ∃ before line message, FailsFirst lines before line ∧
        e = .load name (number + before.length) message := by
  induction lines generalizing number with
  | nil => exact holds_nil number
  | cons line lines ih =>
      specialize @ih (number + 1)
      rw [readLines]
      cases hline : Statement.ofLine? line with
      | error fault =>
          refine ⟨[], line, fault.message, ⟨⟨lines, rfl⟩, List.forall_mem_nil _, ?_⟩, rfl⟩
          intro found hfound
          rw [← Statement.ofLine?_eq_ok_iff, hline] at hfound
          cases hfound
      | ok found =>
          rw [Statement.ofLine?_eq_ok_iff] at hline
          cases hrest : readLines name (number + 1) lines with
          | error e =>
              rw [hrest] at ih
              obtain ⟨before, bad, message, hfails, rfl⟩ := ih
              refine ⟨line :: before, bad, message, hfails.cons hline, ?_⟩
              rw [List.length_cons, Nat.add_assoc, Nat.add_comm 1]
          | ok more =>
              rw [hrest] at ih
              have hholds := ih.cons hline
              cases found with
              | none => exact hholds
              | some statement => exact hholds

theorem parse_cases (name source : String) :
    (∃ found, Chunk.parse name source = .ok ⟨name, found⟩ ∧
      Holds 1 (Text.lines source.toList) found) ∨
    ∃ before line message, Chunk.parse name source = .error (.load name (before.length + 1) message) ∧
      FailsFirst (Text.lines source.toList) before line := by
  have hcases := readLines_cases name 1 (Text.lines source.toList)
  rw [parse]
  cases hread : readLines name 1 (Text.lines source.toList) with
  | ok found =>
      rw [hread] at hcases
      exact .inl ⟨found, rfl, hcases⟩
  | error e =>
      rw [hread] at hcases
      obtain ⟨before, line, message, hfails, rfl⟩ := hcases
      exact .inr ⟨before, line, message, by rw [Nat.add_comm], hfails⟩

end Chunk

/-- The text of a statement, with a blank after each token. -/
def Statement.printed (statement : Statement) : String :=
  String.ofList (Token.lineOf statement.tokens)

theorem Chunk.parse_printed (hread : Token.readAll 1 line = .ok ts) (hreads : statement.Reads ts)
    (hnumber : ∀ t ∈ ts, t.HasFiniteNumber) : ∃ statement', statement.equal statement' = true ∧
      ∀ name, Chunk.parse name statement.printed = .ok ⟨name, [(1, statement')]⟩ := by
  obtain ⟨hprints, htokens⟩ := hreads.tokens_cases
  have hwritten : ∀ t ∈ statement.tokens, t.HasName ∧ t.HasFiniteNumber := by
    have hall : ∀ t ∈ ts, t.HasName ∧ t.HasFiniteNumber :=
      fun t hmem => ⟨Token.hasName_of_readAll hread t hmem, hnumber t hmem⟩
    rcases htokens with h | h
    · rw [h]
      exact hall
    · rw [h]
      have hlocal : isName "local" = true := by decide
      exact List.forall_mem_cons.mpr ⟨⟨hlocal, trivial⟩, hall⟩
  obtain ⟨ts', hagree, hback⟩ := Token.readAll_lineOf (fun t hmem => (hwritten t hmem).1)
    fun t hmem => (hwritten t hmem).2
  obtain ⟨statement', hreads', hequal⟩ := hprints.agree hagree
  refine ⟨statement', hequal, fun name => ?_⟩
  have hline : Statement.ofLine? (Token.lineOf statement.tokens) = .ok (some statement') :=
    Statement.ofLine?_eq_ok_iff.mpr ⟨ts', hback 1, hreads'⟩
  have hunbroken := Token.lineOf_unbroken fun t hmem => (hwritten t hmem).1
  have hne : Token.lineOf statement.tokens ≠ [] := by
    obtain ⟨t, more, htokens⟩ := List.exists_cons_of_ne_nil hprints.ne_nil
    rw [htokens, Token.lineOf_cons]
    simp
  have hlines : Text.lines (Token.lineOf statement.tokens) = [Token.lineOf statement.tokens] := by
    simp [Text.lines, Text.pieces_of_not_mem hunbroken.1, Text.finishLines, hne]
  rw [Chunk.parse, Statement.printed, String.toList_ofList, hlines, Chunk.readLines, hline]
  rfl

theorem Statement.exists_onLine_iff : (∃ found, OnLine line found) ↔
    ∃ ts, Token.readAll 1 line = .ok ts ∧ (ts = [] ∨ ∃ statement : Statement, statement.Reads ts) := by
  constructor
  · rintro ⟨_ | statement, h⟩
    · exact ⟨[], h, .inl rfl⟩
    · obtain ⟨ts, hread, hreads⟩ := h
      exact ⟨ts, hread, .inr ⟨statement, hreads⟩⟩
  · rintro ⟨ts, hread, rfl | ⟨statement, hreads⟩⟩
    · exact ⟨none, hread⟩
    · exact ⟨some statement, ts, hread, hreads⟩

/-- A chunk is accepted exactly if each line is empty or derived from the grammar, and it holds the
trees of the derivations, of which there is one for each line. Otherwise the error has the number of
the first line that is neither. What is printed for a line with finite numbers is read back as an
equal statement. -/
theorem chunk_grammar (name source : String) :
    ((∃ chunk, Chunk.parse name source = .ok chunk) ↔
      ∀ line ∈ Text.lines source.toList, ∃ ts, Token.readAll 1 line = .ok ts ∧
        (ts = [] ∨ ∃ statement : Statement, statement.Reads ts)) ∧
    (∀ chunk, Chunk.parse name source = .ok chunk →
      chunk.name = name ∧ Chunk.Holds 1 (Text.lines source.toList) chunk.lines) ∧
    (∀ (ts : List Token) (statement statement' : Statement),
      statement.Reads ts → statement'.Reads ts → statement = statement') ∧
    (∀ e, Chunk.parse name source = .error e → ∃ before line message,
      e = .load name (before.length + 1) message ∧
        Chunk.FailsFirst (Text.lines source.toList) before line) ∧
    ∀ line ∈ Text.lines source.toList, ∀ (ts : List Token) (statement : Statement),
      Token.readAll 1 line = .ok ts → statement.Reads ts → (∀ t ∈ ts, t.HasFiniteNumber) →
        ∃ statement', statement.equal statement' = true ∧ ∀ chunk,
          Chunk.parse chunk statement.printed = .ok ⟨chunk, [(1, statement')]⟩ := by
  have hprinted : ∀ line ∈ Text.lines source.toList, ∀ (ts : List Token) (statement : Statement),
      Token.readAll 1 line = .ok ts → statement.Reads ts → (∀ t ∈ ts, t.HasFiniteNumber) →
        ∃ statement', statement.equal statement' = true ∧ ∀ chunk,
          Chunk.parse chunk statement.printed = .ok ⟨chunk, [(1, statement')]⟩ :=
    fun line _ ts statement hread hreads hnumber => Chunk.parse_printed hread hreads hnumber
  simp only [← Statement.exists_onLine_iff]
  rcases Chunk.parse_cases name source with ⟨found, hparse, hholds⟩ |
    ⟨before, line, message, hparse, hfails⟩
  · refine ⟨iff_of_true ⟨_, hparse⟩ hholds.readable, ?_, fun _ _ _ => Statement.Reads.unique, ?_, hprinted⟩
    · intro chunk hchunk
      rw [hparse] at hchunk
      cases hchunk
      exact ⟨rfl, hholds⟩
    · intro e he
      rw [hparse] at he
      cases he
  · refine ⟨iff_of_false ?_ ?_, ?_, fun _ _ _ => Statement.Reads.unique, ?_, hprinted⟩
    · rintro ⟨chunk, hchunk⟩
      rw [hparse] at hchunk
      cases hchunk
    · intro hall
      obtain ⟨after, hlines⟩ := hfails.split
      obtain ⟨found, hfound⟩ := hall line (by simp [hlines])
      exact hfails.fails found hfound
    · intro chunk hchunk
      rw [hparse] at hchunk
      cases hchunk
    · intro e he
      rw [hparse] at he
      cases he
      exact ⟨before, line, message, rfl, hfails⟩

/-- A declaration with nested calls, a line without tokens and a call. -/
def nestedSource : String :=
  "local x, y = f(-1.5, y:m(nil, 'a b'))\n -- one\nprint(x)\n"

/-- It is read, and its first statement is read back. -/
theorem chunk_grammar_nested : ∃ chunk, Chunk.parse "c" nestedSource = .ok chunk ∧
    chunk.name = "c" ∧ Chunk.Holds 1 (Text.lines nestedSource.toList) chunk.lines ∧
    ∃ statement statement', (1, statement) ∈ chunk.lines ∧ statement.equal statement' = true ∧
      ∀ name, Chunk.parse name statement.printed = .ok ⟨name, [(1, statement')]⟩ := by
  have haccepted : ((Chunk.parse "c" nestedSource).toOption.map
      fun chunk => chunk.lines.map Prod.fst) = some [1, 3] := by decide +kernel
  have hfinite : ∀ line ∈ Text.lines nestedSource.toList,
      ∀ t ∈ (Token.readAll 1 line).toOption.getD [], t.HasFiniteNumber := by decide +kernel
  obtain ⟨-, hholds, -, -, hprinted⟩ := chunk_grammar "c" nestedSource
  cases hparse : Chunk.parse "c" nestedSource with
  | error e =>
      rw [hparse] at haccepted
      cases haccepted
  | ok chunk =>
      rw [hparse] at haccepted
      obtain ⟨hname, hlines⟩ := hholds chunk hparse
      have hfirst : 1 ∈ chunk.lines.map Prod.fst := by
        have hnumbers : chunk.lines.map Prod.fst = [1, 3] := Option.some.inj haccepted
        simp [hnumbers]
      obtain ⟨⟨_, statement⟩, hmem, rfl⟩ := List.mem_map.mp hfirst
      obtain ⟨i, line, hline, -, ts, hread, hreads⟩ := (hlines.mem_iff _ _).mp hmem
      have hnumber : ∀ t ∈ ts, t.HasFiniteNumber := by
        have hall := hfinite line (List.mem_of_getElem? hline)
        rwa [hread] at hall
      obtain ⟨statement', hequal, hback⟩ :=
        hprinted line (List.mem_of_getElem? hline) ts statement hread hreads hnumber
      exact ⟨chunk, rfl, hname, hlines, statement, statement', hmem, hequal, hback⟩

/-- The word that declares names cannot be assigned to, though it is spelled like a name: were it
allowed to start an assignment, this line would have a derivation. -/
theorem chunk_grammar_local : ¬ ((∃ chunk, Chunk.parse "c" "local = x" = .ok chunk) ↔
    ∀ line ∈ Text.lines "local = x".toList, ∃ ts, Token.readAll 1 line = .ok ts ∧
      (ts = [] ∨ ∃ statement : Statement, statement.Derives (fun _ => True) ts)) := by
  have hparse : (Chunk.parse "c" "local = x").isOk = false := by decide +kernel
  have hlines : Text.lines "local = x".toList = ["local = x".toList] := by decide
  have hread : Token.readAll 1 "local = x".toList =
      .ok [.name "local", .equals, .name "x"] := by decide +kernel
  intro hiff
  obtain ⟨chunk, hchunk⟩ := hiff.mpr (by
    rw [hlines, List.forall_mem_singleton]
    exact ⟨_, hread, .inr ⟨_, .assign trivial (.last "local") (.last (.global "x"))⟩⟩)
  rw [hchunk] at hparse
  cases hparse

end ScriptPool
