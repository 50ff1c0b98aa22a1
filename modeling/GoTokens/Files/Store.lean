/-!
What commands need of files, and what can be wrong with them. Commands are written
against this interface, so that they run on the files of the machine and on a
tree of files in memory alike.
-/

namespace GoTokens

inductive FileFault where
  | notFound
  | notADirectory
  | isADirectory
  | alreadyExists
  /-- A part of the path, or the path as a whole, has too many bytes. -/
  | nameTooLong
  /-- The bytes are not UTF-8. -/
  | notText
  | other (text : String)
deriving DecidableEq, Repr

def FileFault.message : FileFault → String
  | notFound => "No such file or directory (os error 2)"
  | notADirectory => "Not a directory (os error 20)"
  | isADirectory => "Is a directory (os error 21)"
  | alreadyExists => "File exists (os error 17)"
  | nameTooLong => "File name too long (os error 36)"
  | notText => "stream did not contain valid UTF-8"
  | other text => text

class FileStore (m : Type → Type) where
  /-- Whether a path leads to a file or a directory. -/
  isThere : String → m Bool
  readText : String → m (Except FileFault String)
  /-- Make a directory and those that lead to it, where they are missing. -/
  makeDirectories : String → m (Except FileFault Unit)
  /-- Make a file or give it a new content. -/
  writeText : String → String → m (Except FileFault Unit)

end GoTokens
