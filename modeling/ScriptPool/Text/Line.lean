import ScriptPool.Text.Class

namespace ScriptPool.Text

/-- The text without the blanks at its start. -/
def trimStart (cs : List Char) : List Char :=
  cs.dropWhile isBlank

/-- The text without the blanks at its end. -/
def trimEnd (cs : List Char) : List Char :=
  (cs.reverse.dropWhile isBlank).reverse

/-- The text without the blanks at both ends. -/
def trim (cs : List Char) : List Char :=
  trimEnd (trimStart cs)

/-- The blanks that `trimStart` takes away. -/
def indentOf (cs : List Char) : List Char :=
  cs.takeWhile isBlank

theorem indentOf_append_trimStart (cs : List Char) : indentOf cs ++ trimStart cs = cs :=
  List.takeWhile_append_dropWhile

/-- Every line break becomes a line feed: a carriage return, with the line feed after it if there
is one. -/
def unifyBreaks : List Char → List Char
  | [] => []
  | '\r' :: '\n' :: rest => '\n' :: unifyBreaks rest
  | '\r' :: rest => '\n' :: unifyBreaks rest
  | c :: rest => c :: unifyBreaks rest

/-- The pieces of a text between line feeds, at least one. -/
def pieces : List Char → List (List Char)
  | [] => [[]]
  | c :: rest =>
    if c = '\n' then [] :: pieces rest
    else match pieces rest with
      | [] => [[c]]
      | first :: others => (c :: first) :: others

/-- A line that ended in a line feed, without the carriage return that may stand before it. -/
def dropReturn (line : List Char) : List Char :=
  if line.getLast? = some '\r' then line.dropLast else line

/-- Cuts off the last piece if it is empty; the other pieces ended in a line feed. -/
def finishLines : List (List Char) → List (List Char)
  | [] => []
  | [last] => if last.isEmpty then [] else [last]
  | line :: others => dropReturn line :: finishLines others

/-- The lines of a text. A line ends in a line feed, with or without a carriage return before it;
an empty piece after the last line feed is no line. -/
def lines (cs : List Char) : List (List Char) :=
  finishLines (pieces cs)

theorem pieces_ne_nil (cs : List Char) : pieces cs ≠ [] := by
  cases cs with
  | nil => simp [pieces]
  | cons c rest =>
      unfold pieces
      split
      · simp
      · split
        · simp
        · simp

end ScriptPool.Text
