/-!
Names of files as they are written: parts between slashes, from the root if the
first character is a slash, and else from the current directory.
-/

namespace GoTokens.Path

/-- The most bytes that a file system takes in one part of a path. -/
def partLimit : Nat := 255

/-- The most bytes of a path that can be followed. -/
def byteLimit : Nat := 4095

def fits (path : String) : Bool := path.utf8ByteSize ≤ byteLimit

/-- The stretches of a text between its slashes, empty ones included. -/
def pieces (cs : List Char) : List (List Char) :=
  cs.foldr (fun c found =>
    if c = '/' then [] :: found
    else
      match found with
      | piece :: found => (c :: piece) :: found
      | [] => [[c]]) [[]]

def isAbsolute (path : String) : Bool := path.toList.head? == some '/'

/-- The parts of a path. Empty parts mean nothing, except that a slash at the end asks for
a directory, as the part `.` does. -/
def parts (path : String) : List String :=
  let cs := path.toList
  let named := ((pieces cs).filter (!·.isEmpty)).map String.ofList
  if cs.getLast? = some '/' then named ++ ["."] else named

def join (directory name : String) : String :=
  if directory.isEmpty || directory.toList.getLast? = some '/' then directory ++ name
  else directory ++ "/" ++ name

/-- A path read from its end, without the slashes and the parts `.` that it ends in. -/
def trimEnd : List Char → List Char
  | '/' :: cs => trimEnd cs
  | '.' :: '/' :: cs => trimEnd cs
  | cs => cs

/-- The path of the directory that the last part stands in: all up to the last slash, and
no more of that than names a directory. The root keeps its slash. -/
def parent (path : String) : String :=
  let shorter := trimEnd (path.toList.reverse.dropWhile (· ≠ '/'))
  if shorter.isEmpty && isAbsolute path then "/" else String.ofList shorter.reverse

end GoTokens.Path
