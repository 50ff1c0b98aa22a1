import GoTokens.Text.Blank
import GoTokens.Token

/-!
Strings and runes. A backslash takes the following character along, whatever it
is, and the first mark that is not taken along closes the literal. The value keeps
the spelling of the literal, escapes included, on one line and without blanks
before the closing mark.
-/

namespace GoTokens.Quoted

/-- Line ends as the two characters that stand for them. -/
def onOneLine (cs : List Char) : List Char :=
  cs.flatMap fun c => if c = '\n' then ['\\', 'n'] else [c]

/-- The number of characters before the closing mark, in a text after the opening one.
`escaped` says that a backslash came right before, `seen` counts the characters read. -/
def bodyLength? (mark : Char) (escaped : Bool) (seen : Nat) : List Char → Option Nat
  | [] => none
  | c :: cs =>
    if escaped then bodyLength? mark false (seen + 1) cs
    else if c = mark then some seen
    else bodyLength? mark (c == '\\') (seen + 1) cs

def storedText (mark : Char) (body : List Char) : List Char :=
  Text.trimEnd (onOneLine (mark :: body)) ++ [mark]

/-- The value of a literal: single marks make a rune, the others a string. -/
def value (mark : Char) (body : List Char) : TokenValue :=
  let text := String.ofList (storedText mark body)
  if mark = '\'' then .byte text else .string text

end GoTokens.Quoted
