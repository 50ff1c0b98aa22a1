import GoTokens.Command.Session
import GoTokens.Configuration
import GoTokens.Files.Path

/-!
Finding, reading and writing the configuration file. Without a file of its own a
run takes the first of three places that has one: the current directory, the home
directory and the directory for configurations.
-/

namespace GoTokens.Command

variable {m : Type → Type} [Monad m] [FileStore m]

def configurationName : String := "golt.toml"

/-- Directories that a run is told of by its environment. -/
structure Surroundings where
  home : Option String
  /-- Where configurations stand, if it is told apart from the home directory. -/
  configurations : Option String
deriving DecidableEq, Repr

/-- Where a configuration is looked for, in this order. A directory for configurations
that is not absolute is passed over for the one in the home directory. -/
def Surroundings.candidates (around : Surroundings) : List String :=
  let inHome := around.home.map (Path.join · ".config")
  let general :=
    match around.configurations with
    | some path => if Path.isAbsolute path then some path else inHome
    | none => inHome
  let named (directory : String) := Path.join (Path.join directory "golt") configurationName
  configurationName :: (inHome.map named).toList ++ (general.map named).toList

def loadFrom (path : String) : Session m Settings := do
  if !(← Session.onFiles (FileStore.isThere path)) then throw (.configurationNotFound path)
  let text ← Session.orFail none (← Session.onFiles (FileStore.readText path))
  match Configuration.read? text with
  | some settings =>
    Session.report [.configurationLoaded path]
    return settings
  | none => throw .configurationUnreadable

def firstThere? : List String → m (Option String)
  | [] => return none
  | path :: paths => do
    if ← FileStore.isThere path then return some path else firstThere? paths

/-- The settings in the file that was named, or else in the first file found, or else the
default. -/
def load (around : Surroundings) (named : Option String) : Session m Settings := do
  match named with
  | some path => loadFrom path
  | none =>
    match ← Session.onFiles (firstThere? around.candidates) with
    | some path => loadFrom path
    | none =>
      Session.report [.configurationMissing]
      return {}

/-- Write settings to a file, in a directory that is made if it is missing. -/
def saveTo (path : String) (settings : Settings) : Session m Unit := do
  Session.orFail none (← Session.onFiles (FileStore.makeDirectories (Path.parent path)))
  Session.orFail none
    (← Session.onFiles (FileStore.writeText path (Configuration.write settings)))

/-- Write the default settings into a directory. A file that is there is only replaced by
force. -/
def create (directory : Option String) (force : Bool) : Session m Unit := do
  let path := Path.join (directory.getD ".") configurationName
  if (← Session.onFiles (FileStore.isThere path)) && !force then
    throw (.configurationExists path)
  saveTo path {}
  Session.report [.configurationWritten path]
  Session.print ("Created " ++ path ++ "\n")

end GoTokens.Command
