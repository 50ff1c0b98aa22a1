import GoTokens.Command.Session
import GoTokens.Listing

/-!
The commands that list the tokens of a file. One scans the whole file before it
writes anything; the other writes each row as soon as its token is there.
-/

namespace GoTokens.Command

variable {m : Type → Type} [Monad m] [FileStore m]

def readSource (path : String) : Session m String := do
  let source ← Session.orFail (some path) (← Session.onFiles (FileStore.readText path))
  Session.report [.sourceRead path source.utf8ByteSize]
  return source

def listAll (settings : Settings) (source : String) : Session m Unit := do
  let (result, scanner) := (Scanner.ofString source).scan
  Session.report (scanner.events .trace)
  match result with
  | .error error => throw (.scan error)
  | .ok tokens =>
    let shown := tokens.filter settings.keeps
    Session.report [.rendering tokens.length shown.length]
    Session.print (Listing.render settings shown)

/-- List the tokens of a text as a table, row by row. -/
def listRows (settings : Settings) (source : String) : Session m Unit := do
  let (text, rows, error, scanner) := Listing.stream settings (Scanner.ofString source)
  Session.print text
  Session.report (scanner.events .trace)
  match error with
  | some error => throw (.scan error)
  | none => Session.report [.streamFinished rows]

def scanFile (settings : Settings) (path : String) : Session m Unit := do
  listAll settings (← readSource path)

def streamFile (settings : Settings) (path : String) : Session m Unit := do
  listRows settings (← readSource path)

end GoTokens.Command
