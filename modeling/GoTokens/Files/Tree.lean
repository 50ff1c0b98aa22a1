import GoTokens.Files.Path
import GoTokens.Files.Store

/-!
Directories and regular files in memory. A path is followed part by part, and each
part can only be followed from a directory that is there; so what `missing/..`
leads to depends on whether `missing` has been made.
-/

namespace GoTokens

/-- Names from the root down. -/
abbrev Location := List String

inductive FileEntry where
  | directory
  | file (content : ByteArray)

instance : DecidableEq FileEntry
  | .directory, .directory => .isTrue rfl
  | .directory, .file _ => .isFalse (by simp)
  | .file _, .directory => .isFalse (by simp)
  | .file a, .file b =>
    match ByteArray.instDecidableEq a b with
    | .isTrue h => .isTrue (congrArg FileEntry.file h)
    | .isFalse h => .isFalse fun heq => h (FileEntry.file.inj heq)

structure FileTree where
  entries : List (Location × FileEntry)
deriving DecidableEq

namespace FileTree

def empty : FileTree := ⟨[]⟩

/-- What is at a location. The root is always a directory. -/
def entry? (t : FileTree) (l : Location) : Option FileEntry :=
  if l.isEmpty then some .directory else t.entries.lookup l

/-- The tree with something else, or something new, at a location. -/
def put (t : FileTree) (l : Location) (entry : FileEntry) : FileTree :=
  if (t.entries.lookup l).isSome then
    ⟨t.entries.map fun e => if e.1 = l then (l, entry) else e⟩
  else ⟨t.entries ++ [(l, entry)]⟩

def step (here : Location) (part : String) : Location :=
  if part = "." then here else if part = ".." then here.dropLast else here ++ [part]

/-- Where parts lead from a location. Nothing needs to be there, but all before it has to
be a directory, and a directory takes no part that is too long. -/
def resolve (t : FileTree) (here : Location) : List String → Except FileFault Location
  | [] => .ok here
  | part :: parts =>
    match t.entry? here with
    | some .directory =>
      if part.utf8ByteSize ≤ Path.partLimit then t.resolve (step here part) parts
      else .error .nameTooLong
    | some (.file _) => .error .notADirectory
    | none => .error .notFound

def find (t : FileTree) (here : Location) (parts : List String) : Except FileFault FileEntry :=
  match t.resolve here parts with
  | .error fault => .error fault
  | .ok l =>
    match t.entry? l with
    | some entry => .ok entry
    | none => .error .notFound

def isThere (t : FileTree) (here : Location) (parts : List String) : Bool :=
  (t.find here parts).isOk

def isDirectory (t : FileTree) (here : Location) (parts : List String) : Bool :=
  match t.find here parts with
  | .ok .directory => true
  | _ => false

def readText (t : FileTree) (here : Location) (parts : List String) : Except FileFault String :=
  match t.find here parts with
  | .error fault => .error fault
  | .ok .directory => .error .isADirectory
  | .ok (.file content) =>
    match String.fromUTF8? content with
    | some text => .ok text
    | none => .error .notText

def write (t : FileTree) (here : Location) (parts : List String) (content : ByteArray) :
    Except FileFault FileTree :=
  match t.resolve here parts with
  | .error fault => .error fault
  | .ok l =>
    match t.entry? l with
    | some .directory => .error .isADirectory
    | _ => .ok (t.put l (.file content))

def makeDirectory (t : FileTree) (here : Location) (parts : List String) :
    Except FileFault FileTree :=
  match t.resolve here parts with
  | .error fault => .error fault
  | .ok l =>
    match t.entry? l with
    | some _ => .error .alreadyExists
    | none => .ok (t.put l .directory)

/-- Make one directory, or find it made. -/
def haveDirectory (t : FileTree) (here : Location) (parts : List String) :
    Except FileFault Unit × FileTree :=
  match t.makeDirectory here parts with
  | .ok t => (.ok (), t)
  | .error fault => (if t.isDirectory here parts then .ok () else .error fault, t)

/-- Make a directory and those that lead to it, given by its parts from the last to the
first. Only if something on the way is missing are the parts before the last made first;
those stay made if a later one cannot be. -/
def makeDirectories (here : Location) : List String → FileTree → Except FileFault Unit × FileTree
  | [], t => (.ok (), t)
  | last :: before, t =>
    let parts := (last :: before).reverse
    match t.haveDirectory here parts with
    | (.error .notFound, t) =>
      match makeDirectories here before t with
      | (.ok (), t) => t.haveDirectory here parts
      | failed => failed
    | done => done

end FileTree

structure Workspace where
  tree : FileTree
  current : Location
deriving DecidableEq

namespace Workspace

def base (w : Workspace) (path : String) : Location :=
  if Path.isAbsolute path then [] else w.current

/-- The parts of a path that is short enough to be followed. -/
def partsOf (path : String) : Except FileFault (List String) :=
  if Path.fits path then .ok (Path.parts path) else .error .nameTooLong

def isThere (w : Workspace) (path : String) : Bool :=
  match partsOf path with
  | .ok parts => w.tree.isThere (w.base path) parts
  | .error _ => false

def readText (w : Workspace) (path : String) : Except FileFault String :=
  match partsOf path with
  | .ok parts => w.tree.readText (w.base path) parts
  | .error fault => .error fault

/-- The part `.` names no directory to be made. -/
def makeDirectories (w : Workspace) (path : String) : Except FileFault Unit × Workspace :=
  match partsOf path with
  | .ok parts =>
    let named := parts.filter (· ≠ ".")
    let (result, tree) := FileTree.makeDirectories (w.base path) named.reverse w.tree
    (result, { w with tree })
  | .error fault => (.error fault, w)

def writeText (w : Workspace) (path text : String) : Except FileFault Unit × Workspace :=
  match partsOf path with
  | .error fault => (.error fault, w)
  | .ok parts =>
    match w.tree.write (w.base path) parts text.toUTF8 with
    | .ok tree => (.ok (), { w with tree })
    | .error fault => (.error fault, w)

instance : FileStore (StateM Workspace) where
  isThere path := do return (← get).isThere path
  readText path := do return (← get).readText path
  makeDirectories path := fun w => w.makeDirectories path
  writeText path text := fun w => w.writeText path text

end Workspace

end GoTokens
