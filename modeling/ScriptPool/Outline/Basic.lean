import ScriptPool.Text.Hidden

namespace ScriptPool

open ScriptPool.Text

/-- The structure of something that is shown. -/
inductive Outline where
  /-- A text that stands for itself. -/
  | word (text : String)
  /-- A name, which may be empty, with items in parentheses. -/
  | tuple (name : String) (items : List Outline)
  /-- A name with named fields in braces. -/
  | record (name : String) (fields : List (String × Outline))
  /-- Items in brackets. -/
  | sequence (items : List Outline)

namespace Outline

/-- A code point in braces after `\u`. -/
private def codePoint (c : Char) : List Char :=
  ['\\', 'u', '\x7b'] ++ Nat.toDigits 16 c.toNat ++ ['\x7d']

/-- A character inside double quotes; what prints nothing by itself is written as its code point. -/
def quotedChar (c : Char) : List Char :=
  if c = '\x00' then ['\\', '0']
  else if c = '\t' then ['\\', 't']
  else if c = '\r' then ['\\', 'r']
  else if c = '\n' then ['\\', 'n']
  else if c = '"' then ['\\', '"']
  else if c = '\\' then ['\\', '\\']
  else if isHidden c || isCombining c then codePoint c
  else [c]

/-- A text in double quotes. -/
def text (s : String) : Outline :=
  .word (String.ofList ('"' :: (s.toList.flatMap quotedChar ++ ['"'])))

def number (n : Nat) : Outline :=
  .word (toString n)

/-- A truth value. -/
def boolean (b : Bool) : Outline :=
  .word (if b then "true" else "false")

/-- Something that may be absent. -/
def option : Option Outline → Outline
  | some item => .tuple "Some" [item]
  | none => .word "None"

mutual

def compact : Outline → String
  | .word text => text
  | .tuple name items => name ++ "(" ++ compactItems items ++ ")"
  | .record name [] => name
  | .record name fields => name ++ " \x7b " ++ compactFields fields ++ " \x7d"
  | .sequence items => "[" ++ compactItems items ++ "]"

/-- Items separated by commas. -/
def compactItems : List Outline → String
  | [] => ""
  | [last] => compact last
  | item :: rest => compact item ++ ", " ++ compactItems rest

/-- Named fields separated by commas. -/
def compactFields : List (String × Outline) → String
  | [] => ""
  | [(name, last)] => name ++ ": " ++ compact last
  | (name, field) :: rest => name ++ ": " ++ compact field ++ ", " ++ compactFields rest

end

/-- The blanks in front of a line at a depth. -/
def indentation (depth : Nat) : String :=
  String.ofList (List.replicate (4 * depth) ' ')

mutual

/-- The outline with one item per line; the lines after the first stand at `depth`. -/
def spreadAt (depth : Nat) : Outline → String
  | .word text => text
  | .tuple name [] => name ++ "()"
  | .tuple name items =>
    name ++ "(\n" ++ spreadItems (depth + 1) items ++ indentation depth ++ ")"
  | .record name [] => name
  | .record name fields =>
    name ++ " \x7b\n" ++ spreadFields (depth + 1) fields ++ indentation depth ++ "\x7d"
  | .sequence [] => "[]"
  | .sequence items => "[\n" ++ spreadItems (depth + 1) items ++ indentation depth ++ "]"

/-- Items, each on lines of its own. -/
def spreadItems (depth : Nat) : List Outline → String
  | [] => ""
  | item :: rest =>
    indentation depth ++ spreadAt depth item ++ ",\n" ++ spreadItems depth rest

/-- Named fields, each on lines of its own. -/
def spreadFields (depth : Nat) : List (String × Outline) → String
  | [] => ""
  | (name, field) :: rest =>
    indentation depth ++ name ++ ": " ++ spreadAt depth field ++ ",\n" ++ spreadFields depth rest

end

/-- The outline as text, on one line or spread over several. -/
def render (spread : Bool) (outline : Outline) : String :=
  if spread then outline.spreadAt 0 else outline.compact

end Outline

end ScriptPool
