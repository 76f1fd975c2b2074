import ScriptPool.Json.Basic

/-!
Reading JSON documents.

The readers return what they read and the text after it. Those that call each other take a bound on
the depth of the calls; the length of the text gives one that is always enough.
-/

namespace ScriptPool.Json

open ScriptPool.Text

/-- The four blanks that may stand between the parts of a document. -/
def isSpace (c : Char) : Bool :=
  c = ' ' || c = '\n' || c = '\t' || c = '\r'

/-- The text without the blanks at its start. -/
def skipSpace (cs : List Char) : List Char :=
  cs.dropWhile isSpace

/-- The rest of a text after a word that it must start with. -/
def dropWord? : (word : List Char) → List Char → Option (List Char)
  | [], rest => some rest
  | _ :: _, [] => none
  | w :: word, c :: rest => if w = c then dropWord? word rest else none

/-! ### Numbers -/

/-- The value of a hexadecimal digit. -/
def hexDigit? (c : Char) : Option Nat :=
  if isDigit c then some (c.toNat - '0'.toNat)
  else if 'a' ≤ c && c ≤ 'f' then some (c.toNat - 'a'.toNat + 10)
  else if 'A' ≤ c && c ≤ 'F' then some (c.toNat - 'A'.toNat + 10)
  else none

/-- Digits at the start of a text, at least one. -/
def digits? (cs : List Char) : Option (List Char × List Char) :=
  let ds := cs.takeWhile isDigit
  if ds.isEmpty then none else some (ds, cs.dropWhile isDigit)

/-- The whole part of a number: zero, or digits that do not start with a zero. -/
def wholePart? (cs : List Char) : Option (List Char × List Char) :=
  match digits? cs with
  | some ('0' :: _ :: _, _) => none
  | found => found

/-- The fraction of a number, if there is one. -/
def fractionPart? : List Char → Option (List Char × List Char)
  | '.' :: rest => (digits? rest).map fun (ds, after) => ('.' :: ds, after)
  | rest => some ([], rest)

/-- The exponent of a number, if there is one. -/
def exponentPart? : List Char → Option (List Char × List Char)
  | [] => some ([], [])
  | e :: rest =>
    if e = 'e' || e = 'E' then
      match rest with
      | '+' :: rest => (digits? rest).map fun (ds, after) => (e :: '+' :: ds, after)
      | '-' :: rest => (digits? rest).map fun (ds, after) => (e :: '-' :: ds, after)
      | rest => (digits? rest).map fun (ds, after) => (e :: ds, after)
    else some ([], e :: rest)

/-- A number without its sign. -/
def unsigned? (cs : List Char) : Option (List Char × List Char) :=
  match wholePart? cs with
  | none => none
  | some (whole, rest) =>
    match fractionPart? rest with
    | none => none
    | some (fraction, rest) =>
      (exponentPart? rest).map fun (exponent, rest) => (whole ++ fraction ++ exponent, rest)

def number? : List Char → Option (List Char × List Char)
  | '-' :: rest => (unsigned? rest).map fun (text, after) => ('-' :: text, after)
  | cs => unsigned? cs

/-! ### Strings -/

/-- What a short escape stands for. -/
def shortEscape? (c : Char) : Option Char :=
  if c = '"' || c = '\\' || c = '/' then some c
  else if c = 'b' then some '\x08'
  else if c = 'f' then some '\x0c'
  else if c = 'n' then some '\n'
  else if c = 'r' then some '\r'
  else if c = 't' then some '\t'
  else none

/-- The rest of a string after its opening quote. -/
def stringPieces? : List Char → Option (List Piece × List Char)
  | [] => none
  | '"' :: rest => some ([], rest)
  | '\\' :: 'u' :: a :: b :: c :: d :: rest =>
    match hexDigit? a, hexDigit? b, hexDigit? c, hexDigit? d with
    | some a, some b, some c, some d =>
      (stringPieces? rest).map fun (pieces, after) =>
        (.unit (((a * 16 + b) * 16 + c) * 16 + d) :: pieces, after)
    | _, _, _, _ => none
  | '\\' :: e :: rest =>
    match shortEscape? e with
    | some c => (stringPieces? rest).map fun (pieces, after) => (.char c :: pieces, after)
    | none => none
  | c :: rest =>
    if c.toNat < 0x20 || c = '\\' then none
    else (stringPieces? rest).map fun (pieces, after) => (.char c :: pieces, after)

/-! ### Documents -/

mutual

/-- A document at the start of a text. -/
def document? : (bound : Nat) → List Char → Option (Json × List Char)
  | 0, _ => none
  | bound + 1, cs =>
    match skipSpace cs with
    | [] => none
    | '"' :: rest => (stringPieces? rest).map fun (pieces, after) => (.string pieces, after)
    | '[' :: rest =>
      match skipSpace rest with
      | ']' :: after => some (.array [], after)
      | rest => (items? bound rest).map fun (items, after) => (.array items, after)
    | '\x7b' :: rest =>
      match skipSpace rest with
      | '\x7d' :: after => some (.object [], after)
      | rest => (fields? bound rest).map fun (fields, after) => (.object fields, after)
    | 'n' :: rest => (dropWord? ['u', 'l', 'l'] rest).map fun after => (.null, after)
    | 't' :: rest => (dropWord? ['r', 'u', 'e'] rest).map fun after => (.boolean true, after)
    | 'f' :: rest => (dropWord? ['a', 'l', 's', 'e'] rest).map fun after => (.boolean false, after)
    | rest => (number? rest).map fun (text, after) => (.number text, after)

/-- The items of an array up to its closing bracket, at least one. -/
def items? : (bound : Nat) → List Char → Option (List Json × List Char)
  | 0, _ => none
  | bound + 1, cs =>
    match document? bound cs with
    | none => none
    | some (item, rest) =>
      match skipSpace rest with
      | ',' :: rest => (items? bound rest).map fun (items, after) => (item :: items, after)
      | ']' :: after => some ([item], after)
      | _ => none

/-- The fields of an object up to its closing brace, at least one. -/
def fields? : (bound : Nat) → List Char → Option (List (List Piece × Json) × List Char)
  | 0, _ => none
  | bound + 1, cs =>
    match skipSpace cs with
    | '"' :: rest =>
      match stringPieces? rest with
      | none => none
      | some (name, rest) =>
        match skipSpace rest with
        | ':' :: rest =>
          match document? bound rest with
          | none => none
          | some (value, rest) =>
            match skipSpace rest with
            | ',' :: rest =>
              (fields? bound rest).map fun (fields, after) => ((name, value) :: fields, after)
            | '\x7d' :: after => some ([(name, value)], after)
            | _ => none
        | _ => none
    | _ => none

end

/-- The document that a whole text is. -/
def ofText? (text : String) : Option Json :=
  let cs := text.toList
  match document? (2 * cs.length + 2) cs with
  | some (json, rest) => if (skipSpace rest).isEmpty then some json else none
  | none => none

end ScriptPool.Json
