import ScriptPool.Token.Basic

/-!
Reading the tokens of a line.

Blanks separate tokens and two hyphens outside a string start a comment that runs to the end. Each
reading step returns the text after the token, which is shorter than the text before it. Errors
carry the column, counted in characters from one.
-/

namespace ScriptPool

open ScriptPool.Number ScriptPool.Text

/-- What is wrong at a place in a line. -/
inductive LexFault where
  | unfinishedString
  | unfinishedEscape
  | malformedNumber (text : String)
  | unexpected (c : Char)
  deriving DecidableEq

/-- A fault and the column where it shows. -/
structure LexError where
  column : Nat
  fault : LexFault
  deriving DecidableEq

def LexFault.message : LexFault → String
  | .unfinishedString => "unfinished string"
  | .unfinishedEscape => "unfinished escape sequence"
  | .malformedNumber text => "malformed number `" ++ text ++ "`"
  | .unexpected c => "unexpected character `" ++ c.toString ++ "`"

def LexError.message (e : LexError) : String :=
  "column " ++ toString e.column ++ ": " ++ e.fault.message

namespace Token

/-- The character that an escape stands for; any other character stands for itself. -/
def unescape (c : Char) : Char :=
  if c = 'n' then '\n'
  else if c = 't' then '\t'
  else if c = 'r' then '\r'
  else if c = '0' then '\x00'
  else c

/-- Reads a string up to its closing delimiter. `start` is the column of the opening one and
`column` that of the next character. -/
def readString (delimiter : Char) (start : Nat) :
    (column : Nat) → List Char → Except LexError (List Char × List Char)
  | _, [] => .error ⟨start, .unfinishedString⟩
  | column, c :: rest =>
    if c = delimiter then .ok ([], rest)
    else if c = '\\' then
      match rest with
      | [] => .error ⟨column, .unfinishedEscape⟩
      | e :: rest =>
        match readString delimiter start (column + 2) rest with
        | .error err => .error err
        | .ok (text, after) => .ok (unescape e :: text, after)
    else
      match readString delimiter start (column + 1) rest with
      | .error err => .error err
      | .ok (text, after) => .ok (c :: text, after)

/-- Whether a character can be part of the mantissa of a number. -/
def isMantissaChar (c : Char) : Bool :=
  isDigit c || c = '.'

/-- The first character if it has a property, and the text after it. -/
def takeOne (p : Char → Bool) : List Char → List Char × List Char
  | [] => ([], [])
  | c :: rest => if p c then ([c], rest) else ([], c :: rest)

/-- The exponent at the start of a text: its letter, an optional sign and digits, or nothing. -/
def spanExponent (cs : List Char) : List Char × List Char :=
  let letter := takeOne (fun c => c = 'e' || c = 'E') cs
  if letter.1.isEmpty then ([], cs)
  else
    let sign := takeOne (fun c => c = '+' || c = '-') letter.2
    (letter.1 ++ sign.1 ++ sign.2.takeWhile isDigit, sign.2.dropWhile isDigit)

/-- The characters that a number takes up: an optional minus sign, digits and points, and an
exponent. Whether they make a numeral is decided afterwards. -/
def spanNumber (cs : List Char) : List Char × List Char :=
  let sign := takeOne (· = '-') cs
  let exponent := spanExponent (sign.2.dropWhile isMantissaChar)
  (sign.1 ++ sign.2.takeWhile isMantissaChar ++ exponent.1, exponent.2)

/-- Whether a number starts with `c` when `next` follows. -/
def startsNumber (c : Char) (next : Option Char) : Bool :=
  isDigit c || (c = '-' && next.any isMantissaChar) || (c = '.' && next.any isDigit)

/-- Reads the token that starts with the character `c` in front of `rest`. The character is
neither blank nor the start of a comment. -/
def read (column : Nat) (c : Char) (rest : List Char) : Except LexError (Token × List Char) :=
  if c = '(' then .ok (.opening, rest)
  else if c = ')' then .ok (.closing, rest)
  else if c = ',' then .ok (.comma, rest)
  else if c = '=' then .ok (.equals, rest)
  else if c = ':' then .ok (.colon, rest)
  else if c = '"' ∨ c = '\'' then
    match readString c column (column + 1) rest with
    | .error err => .error err
    | .ok (text, after) => .ok (.string (String.ofList text), after)
  else if startsNumber c rest.head? then
    let (text, after) := spanNumber (c :: rest)
    match Numeral.read text with
    | some numeral => .ok (.number numeral.toDouble, after)
    | none => .error ⟨column, .malformedNumber (String.ofList text)⟩
  else if startsName c then
    .ok (ofWord (String.ofList (c :: rest.takeWhile continuesName)), rest.dropWhile continuesName)
  else .error ⟨column, .unexpected c⟩

theorem length_readString {delimiter : Char} {start column : Nat} {cs text after : List Char}
    (h : readString delimiter start column cs = .ok (text, after)) :
    after.length < cs.length := by
  fun_induction readString delimiter start column cs generalizing text after with
  | case1 => simp at h
  | case2 =>
      cases h
      exact Nat.lt_succ_self _
  | case3 => simp at h
  | case4 => simp at h
  | case5 column e rest t r hr _ ih =>
      simp only [Except.ok.injEq, Prod.mk.injEq] at h
      have := ih hr
      simp only [List.length_cons, ← h.2]
      omega
  | case6 => simp at h
  | case7 column c rest hc hb t r hr ih =>
      simp only [Except.ok.injEq, Prod.mk.injEq] at h
      have := ih hr
      simp only [List.length_cons, ← h.2]
      omega

theorem takeOne_append (p : Char → Bool) (cs : List Char) :
    (takeOne p cs).1 ++ (takeOne p cs).2 = cs := by
  cases cs with
  | nil => rfl
  | cons c rest =>
      by_cases h : p c = true
      · simp [takeOne, h]
      · simp [takeOne, h]

theorem spanExponent_append (cs : List Char) : (spanExponent cs).1 ++ (spanExponent cs).2 = cs := by
  unfold spanExponent
  dsimp only
  split
  · rfl
  · simp [takeOne_append]

theorem spanNumber_append (cs : List Char) : (spanNumber cs).1 ++ (spanNumber cs).2 = cs := by
  simp [spanNumber, spanExponent_append, takeOne_append]

theorem spanNumber_fst_ne_nil {c : Char} {rest : List Char} {next : Option Char}
    (h : startsNumber c next = true) : (spanNumber (c :: rest)).1 ≠ [] := by
  by_cases hc : c = '-'
  · simp [spanNumber, takeOne, hc]
  · have hm : isMantissaChar c = true := by
      simp only [startsNumber, hc, decide_false, Bool.false_and, Bool.or_false, Bool.or_eq_true,
        Bool.and_eq_true, decide_eq_true_eq] at h
      simp only [isMantissaChar, Bool.or_eq_true, decide_eq_true_eq]
      exact h.imp_right And.left
    simp [spanNumber, takeOne, hc, hm]

theorem length_read {column : Nat} {c : Char} {rest after : List Char} {t : Token}
    (h : read column c rest = .ok (t, after)) : after.length ≤ rest.length := by
  unfold read at h
  split at h
  · cases h
    exact Nat.le_refl _
  split at h
  · cases h
    exact Nat.le_refl _
  split at h
  · cases h
    exact Nat.le_refl _
  split at h
  · cases h
    exact Nat.le_refl _
  split at h
  · cases h
    exact Nat.le_refl _
  split at h
  · split at h
    · simp at h
    · next hr =>
        simp only [Except.ok.injEq, Prod.mk.injEq] at h
        exact h.2 ▸ Nat.le_of_lt (length_readString hr)
  split at h
  · next hn =>
      dsimp only at h
      split at h
      · simp only [Except.ok.injEq, Prod.mk.injEq] at h
        have hlen := congrArg List.length (spanNumber_append (c :: rest))
        have hpos : 0 < (spanNumber (c :: rest)).1.length :=
          List.length_pos_iff.mpr (spanNumber_fst_ne_nil hn)
        simp only [List.length_append, List.length_cons] at hlen
        rw [← h.2]
        omega
      · simp at h
  split at h
  · simp only [Except.ok.injEq, Prod.mk.injEq] at h
    rw [← h.2]
    exact (List.dropWhile_suffix _).length_le
  · simp at h

/-- Reads the tokens of a text whose first character stands in the given column. -/
def readAll (column : Nat) : List Char → Except LexError (List Token)
  | [] => .ok []
  | c :: rest =>
    if isBlank c then readAll (column + 1) rest
    else if c = '-' ∧ rest.head? = some '-' then .ok []
    else
      match h : read column c rest with
      | .error err => .error err
      | .ok (t, after) =>
        have := length_read h
        match readAll (column + 1 + (rest.length - after.length)) after with
        | .error err => .error err
        | .ok ts => .ok (t :: ts)
termination_by cs => cs.length

end Token

def tokens (line : String) : Except LexError (List Token) :=
  Token.readAll 1 line.toList

end ScriptPool
