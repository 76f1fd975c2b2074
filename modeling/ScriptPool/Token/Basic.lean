import ScriptPool.Value.Basic
import ScriptPool.Text.Letter

namespace ScriptPool

open ScriptPool.Number ScriptPool.Text

/-- The smallest meaningful piece of a line. -/
inductive Token where
  | name (s : String)
  | number (n : Double)
  | string (s : String)
  | nil
  | boolean (b : Bool)
  | opening
  | closing
  | comma
  | equals
  | colon
  deriving DecidableEq

/-- The escaped form of a character inside double quotes. -/
def escapeChar (c : Char) : List Char :=
  if c = '"' then ['\\', '"']
  else if c = '\\' then ['\\', '\\']
  else if c = '\n' then ['\\', 'n']
  else if c = '\t' then ['\\', 't']
  else if c = '\r' then ['\\', 'r']
  else [c]

/-- A text as a string literal. -/
def quote (text : String) : String :=
  String.ofList ('"' :: (text.toList.flatMap escapeChar ++ ['"']))

/-- The words that are literals. -/
def reservedWords : List String :=
  ["nil", "true", "false"]

/-- Whether a text can name a global or a function: it is spelled like a name and is no literal. -/
def isName (text : String) : Bool :=
  match text.toList with
  | [] => false
  | c :: rest => startsName c && rest.all continuesName && !reservedWords.contains text

namespace Token

def literal? : Token → Option Value
  | .number n => some (.number n)
  | .string s => some (.string s)
  | .nil => some .nil
  | .boolean b => some (.boolean b)
  | _ => none

/-- The written form of a token. -/
def display : Token → String
  | .name s => s
  | .number n => Value.displayNumber n
  | .string s => quote s
  | .nil => "nil"
  | .boolean b => if b then "true" else "false"
  | .opening => "("
  | .closing => ")"
  | .comma => ","
  | .equals => "="
  | .colon => ":"

/-- A word is a literal or a name. -/
def ofWord (word : String) : Token :=
  if word = "nil" then .nil
  else if word = "true" then .boolean true
  else if word = "false" then .boolean false
  else .name word

/-- Whether two tokens are written for the same thing, numbers being compared by value. -/
def agrees : Token → Token → Bool
  | .number a, .number b => a.equal b
  | a, b => a = b

end Token

end ScriptPool
