import GoTokens.Settings

/-!
Tokens as JSON: a list of flat records, indented by two spaces. Numbers that
tokens hold are numbers here too; JSON has no infinity, which becomes null.
-/

namespace GoTokens.Json

inductive Scalar where
  | null
  | number (lexeme : List Char)
  | string (text : List Char)
deriving DecidableEq, Repr

/-- Names and values in the order in which they are written. -/
abbrev Record := List (String × Scalar)

/-- Quotes, backslashes and control characters are escaped, all else is written as it is. -/
def escaped (c : Char) : List Char :=
  if c = '"' then ['\\', '"']
  else if c = '\\' then ['\\', '\\']
  else if c = '\x08' then ['\\', 'b']
  else if c = '\x0c' then ['\\', 'f']
  else if c = '\n' then ['\\', 'n']
  else if c = '\r' then ['\\', 'r']
  else if c = '\t' then ['\\', 't']
  else if c.toNat < 0x20 then
    let digit (n : Nat) : Char := Nat.digitChar n
    ['\\', 'u', '0', '0', digit (c.toNat / 16), digit (c.toNat % 16)]
  else [c]

def quoted (text : List Char) : List Char := '"' :: (text.flatMap escaped ++ ['"'])

def Scalar.render : Scalar → List Char
  | null => ['n', 'u', 'l', 'l']
  | number lexeme => lexeme
  | string text => quoted text

/-- Items on lines of their own between two brackets, each but the last with a comma. -/
def block (opening closing : Char) (indent : Nat) : List (List Char) → List Char
  | [] => [opening, closing]
  | item :: items =>
    let newLine (n : Nat) := '\n' :: List.replicate n ' '
    opening :: (newLine (indent + 2) ++ item ++
      items.flatMap (fun next => ',' :: (newLine (indent + 2) ++ next)) ++
      newLine indent ++ [closing])

def renderRecord (record : Record) : List Char :=
  block '{' '}' 2 (record.map fun field =>
    quoted field.1.toList ++ [':', ' '] ++ field.2.render)

def renderRecords (records : List Record) : List Char :=
  block '[' ']' 0 (records.map renderRecord)

/-- Without an exponent from `0.00001` to below ten to the sixteenth, whole numbers with a
point, and a half to the even digit. -/
def floatStyle : Binary64.TextStyle := ⟨.even, fun lead => -5 ≤ lead && lead ≤ 15, true⟩

def ofFloat (x : Binary64) : Scalar :=
  if x.isNaN || x.isInfinite then .null else .number (x.finiteText floatStyle)

def ofValue : TokenValue → Scalar
  | .int value => .number (Nat.toDigits 10 value)
  | .float value => ofFloat value
  | value => .string value.text.toList

def ofNat (n : Nat) : Scalar := .number (Nat.toDigits 10 n)

def ofToken (t : Token) : Record :=
  [("offset", ofNat t.start.offset), ("line", ofNat t.start.line), ("col", ofNat t.start.column),
    ("kind", .string t.kind.name.toList), ("value", ofValue t.value)]

def render (tokens : List Token) : String :=
  String.ofList (renderRecords (tokens.map ofToken) ++ ['\n'])

end GoTokens.Json
