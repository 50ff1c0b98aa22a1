import GoTokens.Fault
import GoTokens.Token

/-!
What is reported of a run while it goes on: one value for each thing that can
happen, with its level, and its text made only when it is shown.
-/

namespace GoTokens

/-- How much detail an event is, the most severe last. -/
inductive Level where
  | trace | debug | info
deriving DecidableEq, Repr

namespace Level

def name : Level → String
  | trace => "TRACE"
  | debug => "DEBUG"
  | info => "INFO"

def severity : Level → Nat
  | trace => 0
  | debug => 1
  | info => 2

/-- Whether an event of this level is shown where the least severe level shown is `least`. -/
def isShownAt (level least : Level) : Bool := least.severity ≤ level.severity

end Level

inductive Event where
  | token (token : Token)
  | scanStarted (bytes : Nat)
  | scanFailed (error : ScanError)
  | scanFinished (tokens : Nat)
  | sourceRead (path : String) (bytes : Nat)
  | rendering (total shown : Nat)
  | streamFinished (rows : Nat)
  | configurationLoaded (path : String)
  | configurationMissing
  | configurationWritten (path : String)
deriving DecidableEq, Repr

namespace Event

def level : Event → Level
  | token _ => .trace
  | configurationWritten _ => .info
  | _ => .debug

def message : Event → String
  | token _ => "token"
  | scanStarted _ => "scan started"
  | scanFailed _ => "scan failed"
  | scanFinished _ => "scan finished"
  | sourceRead .. => "read source"
  | rendering .. => "rendering tokens"
  | streamFinished _ => "stream finished"
  | configurationLoaded _ => "loaded configuration"
  | configurationMissing => "no configuration file found, using defaults"
  | configurationWritten _ => "wrote configuration"

def fields : Event → List (String × String)
  | token t => [("kind", t.kind.name), ("pos", t.start.text), ("value", t.text)]
  | scanStarted bytes => [("bytes", toString bytes)]
  | scanFailed error => [("error", error.message)]
  | scanFinished tokens => [("tokens", toString tokens)]
  | sourceRead path bytes => [("path", path), ("bytes", toString bytes)]
  | rendering total shown => [("total", toString total), ("shown", toString shown)]
  | streamFinished rows => [("rows", toString rows)]
  | configurationLoaded path => [("path", path)]
  | configurationMissing => []
  | configurationWritten path => [("path", path)]

def line (e : Event) : String :=
  e.fields.foldl (fun text field => text ++ " " ++ field.1 ++ "=" ++ field.2)
    (e.level.name ++ " " ++ e.message)

end Event

end GoTokens
