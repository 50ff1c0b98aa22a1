import GoTokens.Command.Configure
import GoTokens.Command.Tokens
import GoTokens.CommandLine

/-!
A whole run of the program, from its arguments and its environment to what it
leaves: a status, what it has written, and what it has to say of itself.
-/

namespace GoTokens.Command

variable {m : Type → Type} [Monad m] [FileStore m]

structure Reply where
  status : Nat
  output : String
  /-- Why the run has failed. -/
  complaint : String
  /-- What is shown of the events of the run. -/
  log : List String
  /-- Whether the log is shown in colours. -/
  colored : Bool
deriving DecidableEq, Repr

def version : String := "0.1.0"

def usage : String :=
  "Usage: golt [-v] [-c FILE] [--no-color] COMMAND\n\n" ++
  "  scan FILE [-F table|json] [--no-comments]   list the tokens of a file\n" ++
  "  stream FILE [--no-comments]                 list the tokens as they are read\n" ++
  "  init [-p DIRECTORY] [-f]                    write a default golt.toml\n"

def surroundings (environment : String → Option String) : Surroundings :=
  { home := (environment "HOME").filter (!·.isEmpty)
    configurations := environment "XDG_CONFIG_HOME" }

/-- Carry out an invocation. Only the commands that list tokens read a configuration, and
they do so before they read the source file. -/
def carryOut (around : Surroundings) (invocation : CommandLine.Invocation) : Session m Unit := do
  match invocation.command with
  | .scan file format noComments =>
    let settings ← load around invocation.configuration
    scanFile (settings.withRequests format noComments) file
  | .stream file noComments =>
    let settings ← load around invocation.configuration
    streamFile (settings.withRequests none noComments) file
  | .init directory force => create directory force

/-- What is left by a run that has ended one way or the other. -/
def Reply.ofOutcome (invocation : CommandLine.Invocation)
    (outcome : Except Failure Unit × Transcript) : Reply :=
  let least := if invocation.verbose then Level.debug else Level.info
  let shown := outcome.2.events.filter fun e => e.level.isShownAt least
  let complaint :=
    match outcome.1 with
    | .ok () => ""
    | .error failure => "error: " ++ failure.message ++ "\n"
  { status := if complaint.isEmpty then 0 else 1
    output := outcome.2.output
    complaint
    log := shown.map Event.line
    colored := !invocation.noColor }

def Reply.ofStop : CommandLine.Stop → Reply
  | .misuse => ⟨2, "", "error: these arguments make no sense\n\n" ++ usage, [], false⟩
  | .version name => ⟨0, name ++ " " ++ version ++ "\n", "", [], false⟩
  | .help => ⟨0, usage, "", [], false⟩

def run (environment : String → Option String) (args : List String) : m Reply := do
  match CommandLine.parse environment args with
  | .error stop => return .ofStop stop
  | .ok invocation =>
    let outcome ← Session.outcome (carryOut (surroundings environment) invocation)
    return .ofOutcome invocation outcome

end GoTokens.Command
