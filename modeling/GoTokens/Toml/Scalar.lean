import GoTokens.Numeral.Digits
import GoTokens.Toml.Reader
import GoTokens.Toml.Value

/-!
The parts of a TOML document that hold no others: spaces, line ends and comments,
strings, numbers, dates and times.
-/

namespace GoTokens.Toml

open Reader

def isSpace (c : Char) : Bool := c == ' ' || c == '\t'

def spaces : Reader Unit := do let _ ← run isSpace

def lineEnd : Reader Unit := char '\n' <|> exactly ['\r', '\n']

/-- Characters that may stand in a comment: all but control characters, of which the
tab may. -/
def isPrintable (c : Char) : Bool := c == '\t' || (0x20 ≤ c.toNat && c.toNat ≠ 0x7F)

def comment : Reader Unit := do
  char '#'
  let _ ← run isPrintable

def lineOrTextEnd : Reader Unit := lineEnd <|> finish

/-- What may follow a statement on its line. -/
def trailing : Reader Unit := do
  spaces
  let _ ← optional comment
  lineOrTextEnd

/-- Spaces, comments and line ends, where a value goes on over several lines. -/
def blanks : Reader Unit := do
  let _ ← many (((fun _ => ()) <$> satisfy isSpace) <|> lineEnd <|> (do comment; lineEnd))

/-! ### Strings -/

def charOfCode? (n : Nat) : Option Char := if n.isValidChar then some (.ofNat n) else none

/-- The code after `\u` or `\U`. -/
def codedChar (digits : Nat) : Reader Char := do
  let ds ← times digits (satisfy (Numeral.isDigitOf 16))
  match charOfCode? (Numeral.valueOf 16 ds) with
  | some c => return c
  | none => failure

def escape : Reader Char := do
  char '\\'
  match ← satisfy fun _ => true with
  | 'b' => return '\x08'
  | 't' => return '\t'
  | 'n' => return '\n'
  | 'f' => return '\x0c'
  | 'r' => return '\r'
  | '"' => return '"'
  | '\\' => return '\\'
  | 'u' => codedChar 4
  | 'U' => codedChar 8
  | _ => failure

/-- Characters that stand for themselves in a string with escapes. -/
def isPlain (c : Char) : Bool := isPrintable c && c != '"' && c != '\\'

def basicString : Reader String := do
  char '"'
  let cs ← many (satisfy isPlain <|> escape)
  char '"'
  return String.ofList cs

def literalString : Reader String := do
  char '\''
  let cs ← run fun c => isPrintable c && c != '\''
  char '\''
  return String.ofList cs

/-- One or two quotes that do not close a string of several lines. -/
def innerQuotes (quote : Char) : Reader (List Char) := do
  let quotes ← run (· == quote)
  if 1 ≤ quotes.length && quotes.length ≤ 2 then return quotes else failure

/-- Three quotes, and up to two before them that belong to the string. -/
def closingQuotes (quote : Char) : Reader (List Char) := do
  let quotes ← run (· == quote)
  if 3 ≤ quotes.length && quotes.length ≤ 5 then return quotes.drop 3 else failure

/-- A backslash at the end of a line, with all space up to the next text. -/
def continuation : Reader (List Char) := do
  char '\\'
  spaces
  lineEnd
  let _ ← many (((fun _ => ()) <$> satisfy isSpace) <|> lineEnd)
  return []

def longString (quote : Char) (piece : Reader (List Char)) : Reader String := do
  exactly [quote, quote, quote]
  let _ ← optional lineEnd
  let pieces ← many (piece <|> (do lineEnd; return ['\n']) <|> innerQuotes quote)
  let last ← closingQuotes quote
  return String.ofList (pieces.flatten ++ last)

def longBasicString : Reader String :=
  longString '"' (List.singleton <$> satisfy isPlain <|> List.singleton <$> escape <|> continuation)

def longLiteralString : Reader String :=
  longString '\'' (List.singleton <$> satisfy fun c => isPrintable c && c != '\'')

def string : Reader String :=
  longBasicString <|> longLiteralString <|> basicString <|> literalString

/-! ### Numbers -/

/-- Digits with single underscores between them. -/
def digitRun (accept : Char → Bool) : Reader (List Char) := do
  let d ← satisfy accept
  let ds ← many (satisfy accept <|> (do char '_'; satisfy accept))
  return d :: ds

/-- Decimal digits without a leading zero. -/
def wholeDigits : Reader (List Char) :=
  (do char '0'; return ['0']) <|>
    (do
      let d ← satisfy fun c => c.isDigit && c != '0'
      let ds ← many (satisfy Char.isDigit <|> (do char '_'; satisfy Char.isDigit))
      return d :: ds)

/-- Whether a number has a minus; a plus may stand there too. -/
def sign : Reader Bool :=
  (do char '-'; return true) <|> (do char '+'; return false) <|> pure false

/-- Integers have to fit into sixty-four bits with a sign. -/
def integerOf (n : Int) : Reader Value :=
  let limit : Int := Nat.pow 2 63
  if -limit ≤ n ∧ n < limit then return .integer n else failure

def basedInteger (letter : Char) (base : Nat) : Reader Value := do
  exactly ['0', letter]
  let ds ← digitRun (Numeral.isDigitOf base)
  integerOf (Numeral.valueOf base ds)

/-- A float has to be finite unless it says otherwise; one too far below zero is minus
infinity. -/
def decimal : Reader Value := do
  let negative ← sign
  let whole ← wholeDigits
  let fraction ← optional (do char '.'; digitRun Char.isDigit)
  let exponent ← optional (do
    let _ ← satisfy fun c => c == 'e' || c == 'E'
    let down ← sign
    let n : Int := Numeral.valueOf 10 (← digitRun Char.isDigit)
    return if down then -n else n)
  match fraction, exponent with
  | none, none =>
    let n : Int := Numeral.valueOf 10 whole
    integerOf (if negative then -n else n)
  | fraction, exponent =>
    let fraction := fraction.getD []
    let x := Binary64.ofDecimal (Numeral.valueOf 10 (whole ++ fraction))
      (exponent.getD 0 - fraction.length)
    if negative then return .float x.negated
    else if x.isInfinite then failure
    else return .float x

/-- Infinity and what is no number, under their names. -/
def namedFloat : Reader Value := do
  let negative ← sign
  let code ← (do exactly ['i', 'n', 'f']; return Binary64.infinityCode) <|>
    (do exactly ['n', 'a', 'n']; return Binary64.infinityCode + Nat.pow 2 51)
  let x := Binary64.ofCode code
  return .float (if negative then x.negated else x)

/-! ### Dates and times -/

def field (digits low high : Nat) : Reader Nat := do
  let n := Numeral.valueOf 10 (← times digits (satisfy Char.isDigit))
  if low ≤ n ∧ n ≤ high then return n else failure

def daysIn (year month : Nat) : Nat :=
  let leap := year % 4 = 0 ∧ (year % 100 ≠ 0 ∨ year % 400 = 0)
  match month with
  | 2 => if leap then 29 else 28
  | 4 | 6 | 9 | 11 => 30
  | _ => 31

def date : Reader Unit := do
  let year ← field 4 0 9999
  char '-'
  let month ← field 2 1 12
  char '-'
  let _ ← field 2 1 (daysIn year month)

def time : Reader Unit := do
  let _ ← field 2 0 23
  char ':'
  let _ ← field 2 0 59
  char ':'
  let _ ← field 2 0 60
  let _ ← optional (do
    char '.'
    let _ ← satisfy Char.isDigit
    run Char.isDigit)

def zone : Reader Unit :=
  (do let _ ← satisfy fun c => c == 'Z' || c == 'z') <|>
    (do
      let _ ← satisfy fun c => c == '+' || c == '-'
      let _ ← field 2 0 23
      char ':'
      let _ ← field 2 0 59)

def dateTime : Reader Value := do
  (do
    date
    let _ ← optional (do
      let _ ← satisfy fun c => c == 'T' || c == 't' || c == ' '
      time
      optional zone)) <|> time
  return .dateTime

def scalar : Reader Value :=
  (.string <$> string) <|>
    (do exactly ['t', 'r', 'u', 'e']; return .boolean true) <|>
    (do exactly ['f', 'a', 'l', 's', 'e']; return .boolean false) <|>
    dateTime <|> basedInteger 'x' 16 <|> basedInteger 'o' 8 <|> basedInteger 'b' 2 <|>
    namedFloat <|> decimal

end GoTokens.Toml
