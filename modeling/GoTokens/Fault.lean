import GoTokens.Position

/-!
Why a text has no further token. A fault is a property of the text at hand; with
the place where the text begins it is a scan error.
-/

namespace GoTokens

inductive Fault where
  /-- A character that begins no lexeme. -/
  | unknownCharacter (char : Char)
  /-- The text ends inside a string or rune. -/
  | unterminatedLiteral (delimiter : Char)
  /-- The text ends inside a block comment. -/
  | unterminatedComment
  /-- The lexeme of a number that has no value. -/
  | malformedNumber (lexeme : String)
deriving DecidableEq, Repr

structure ScanError where
  fault : Fault
  /-- Where the failing lexeme begins. -/
  position : Position
deriving DecidableEq, Repr

def ScanError.message (e : ScanError) : String :=
  let place := e.position.lineColumn
  match e.fault with
  | .unknownCharacter char =>
    "unknown character '" ++ char.toString ++ "' at offset " ++ toString e.position.offset ++
      " (" ++ place ++ ")"
  | .unterminatedLiteral delimiter =>
    "unterminated literal starting with " ++ delimiter.toString ++ " at " ++ place
  | .unterminatedComment => "unterminated comment starting at " ++ place
  | .malformedNumber lexeme => "malformed number literal '" ++ lexeme ++ "' at " ++ place

end GoTokens
