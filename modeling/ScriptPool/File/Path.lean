/-!
Paths of files: names separated by slashes.

A path may start with a slash or with the folder `.`, and this start is never taken away. Empty
names and the name `.` after it mean nothing at the end of a path, so the file name of `a/b/.` is
`b`. A path that ends in `..`, or has nothing behind its start, has no file name.
-/

namespace ScriptPool.Path

/-- The number of characters at the start of a path that are never taken away. -/
def startLength : List Char → Nat
  | '/' :: _ => 1
  | ['.'] => 1
  | '.' :: '/' :: _ => 1
  | _ => 0

/-- The names between slashes, at least one. -/
def names : List Char → List (List Char)
  | [] => [[]]
  | c :: rest =>
    if c = '/' then [] :: names rest
    else match names rest with
      | [] => [[c]]
      | first :: others => (c :: first) :: others

/-- Names with slashes between them. -/
def joinNames (parts : List (List Char)) : List Char :=
  ['/'].intercalate parts

/-- A name that leads nowhere. -/
def isIdle (name : List Char) : Bool :=
  name = [] || name = ['.']

/-- The names without the idle ones at the end. -/
def trimIdle (parts : List (List Char)) : List (List Char) :=
  (parts.reverse.dropWhile isIdle).reverse

/-- The names of a path after its start, without idle ones at the end. -/
def body (path : List Char) : List (List Char) :=
  trimIdle (names (path.drop (startLength path)))

def fileNameChars? (path : List Char) : Option (List Char) :=
  (body path).getLast?.filter (· ≠ ['.', '.'])

/-- The path of the folder that a path with a file name lies in. -/
def parentChars (path : List Char) : List Char :=
  path.take (startLength path) ++ joinNames (trimIdle (body path).dropLast)

/-- A path followed by another one, which replaces it if it starts with a slash. -/
def appendChars (path other : List Char) : List Char :=
  if other.head? = some '/' then other
  else if path.isEmpty || path.getLast? = some '/' then path ++ other
  else path ++ '/' :: other

/-- The path with another file name; it is added to a path that has none. -/
def withFileNameChars (path name : List Char) : List Char :=
  appendChars (if (fileNameChars? path).isSome then parentChars path else path) name

def fileName? (path : String) : Option String :=
  (fileNameChars? path.toList).map String.ofList

/-- A path followed by another one. -/
def append (path other : String) : String :=
  String.ofList (appendChars path.toList other.toList)

def withFileName (path name : String) : String :=
  String.ofList (withFileNameChars path.toList name.toList)

end ScriptPool.Path
