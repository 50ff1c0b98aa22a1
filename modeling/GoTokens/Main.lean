import GoTokens.Command.Run
import GoTokens.Files.Path

/-!
The program on the files of the machine. All decisions are those of
`Command.run`; here files are touched, and what a run leaves is shown.
-/

namespace GoTokens

/-- What the machine says of a file, as far as it is one of the known faults. -/
def FileFault.ofError (e : IO.Error) : FileFault :=
  match e with
  | .noFileOrDirectory .. | .noSuchThing .. => .notFound
  | .alreadyExists .. => .alreadyExists
  | .inappropriateType _ code _ =>
    -- Some calls report the negated code.
    if code = 20 ∨ code = 0 - 20 then .notADirectory else .isADirectory
  | .invalidArgument _ code _ =>
    if code = 36 ∨ code = 0 - 36 then .nameTooLong else .other (toString e)
  | e => .other (toString e)

/-- An action on files, with its fault as a result. -/
def faultOf {α : Type} (action : IO α) : IO (Except FileFault α) := do
  match ← action.toBaseIO with
  | .ok a => return .ok a
  | .error e => return .error (.ofError e)

def readTextFile (path : String) : IO (Except FileFault String) := do
  match ← faultOf (IO.FS.readBinFile path) with
  | .error fault => return .error fault
  | .ok bytes =>
    match String.fromUTF8? bytes with
    | some text => return .ok text
    | none => return .error .notText

def isThere (path : String) : IO Bool := do
  if !Path.fits path then return false
  match ← faultOf (IO.FS.realPath path) with
  | .ok _ => return true
  | .error _ => return false

def haveDirectory (path : String) : IO (Except FileFault Unit) := do
  match ← faultOf (IO.FS.createDir path) with
  | .ok () => return .ok ()
  | .error fault => return if ← isThere (path ++ "/.") then .ok () else .error fault

/-- Make a directory and those that lead to it, in the order of `FileTree.makeDirectories`. -/
def haveDirectories (base : String) : List String → IO (Except FileFault Unit)
  | [] => return .ok ()
  | last :: before => do
    let path := base ++ "/".intercalate (last :: before).reverse
    match ← haveDirectory path with
    | .error .notFound =>
      match ← haveDirectories base before with
      | .ok () => haveDirectory path
      | failed => return failed
    | done => return done

instance : FileStore IO where
  isThere := isThere
  readText := readTextFile
  makeDirectories path := do
    if !Path.fits path then return .error .nameTooLong
    let parts := (Path.parts path).filter (· ≠ ".")
    haveDirectories (if Path.isAbsolute path then "/" else "") parts.reverse
  writeText path text := faultOf (IO.FS.writeFile path text)

end GoTokens

def main (args : List String) : IO UInt32 := do
  let mut known : List (String × String) := []
  for name in ["HOME", "XDG_CONFIG_HOME", "GOLT_VERBOSE", "GOLT_CONFIG", "GOLT_NO_COLOR"] do
    if let some value ← IO.getEnv name then known := (name, value) :: known
  let reply ← GoTokens.Command.run (fun name => List.lookup name known) args
  for line in reply.log do
    IO.eprintln (if reply.colored then "\x1b[2m" ++ line ++ "\x1b[0m" else line)
  IO.print reply.output
  IO.eprint reply.complaint
  return UInt32.ofNat reply.status
