import GoTokens.Event
import GoTokens.Files.Store

/-!
A run of a command: what it writes, what it reports on the way, and why it stops
before its end if it does. What has been written and reported stays when a run
fails.
-/

namespace GoTokens

inductive Failure where
  | configurationNotFound (path : String)
  /-- The file is no configuration. -/
  | configurationUnreadable
  | configurationExists (path : String)
  /-- A file could not be used; a source file is named. -/
  | file (source : Option String) (fault : FileFault)
  | scan (error : ScanError)
deriving DecidableEq, Repr

namespace Failure

def message : Failure → String
  | configurationNotFound path =>
    "Configuration error: Configuration file not found: " ++ path
  | configurationUnreadable => "Configuration error: Failed to parse configuration"
  | configurationExists path =>
    "Configuration error: Configuration file already exists: " ++ path ++
      " (use --force to overwrite)"
  | file none fault => "IO error: " ++ fault.message
  | file (some path) fault => "IO error: " ++ path ++ ": " ++ fault.message
  | scan error => "Scan error: " ++ error.message

end Failure

structure Transcript where
  output : String
  events : List Event
deriving DecidableEq, Repr

def Transcript.empty : Transcript := ⟨"", []⟩

/-- Runs over some files `m`. -/
abbrev Session (m : Type → Type) := ExceptT Failure (StateT Transcript m)

namespace Session

variable {m : Type → Type} [Monad m]

def print (text : String) : Session m Unit :=
  modify fun t => { t with output := t.output ++ text }

def report (events : List Event) : Session m Unit :=
  modify fun t => { t with events := t.events ++ events }

/-- A result about a file, of which a fault ends the run. -/
def orFail {α : Type} (source : Option String) : Except FileFault α → Session m α
  | .ok a => pure a
  | .error fault => throw (.file source fault)

def onFiles {α : Type} (action : m α) : Session m α := liftM action

/-- Whether a run has come to its end, and what it has written and reported. -/
def outcome {α : Type} (s : Session m α) : m (Except Failure α × Transcript) :=
  s.run.run .empty

end Session

end GoTokens
