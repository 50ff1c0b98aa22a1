import GoTokens.Numeral.Digits
import Mathlib.Tactic.Common

/-!
The grammar of JSON, as relations between values and their texts. Numbers are kept as they are
written. A string may spell its characters in several ways, with a pair of surrogates for a
character outside the basic plane; what stands between brackets are entries, with names in
objects and without in arrays.
-/

namespace GoTokens.Json

inductive Value where
  | null
  | boolean (b : Bool)
  | number (lexeme : List Char)
  | string (text : List Char)
  | array (items : List Value)
  | object (members : List (List Char × Value))

/-- What may stand between any two parts. -/
def IsSpace (cs : List Char) : Prop := ∀ c ∈ cs, c = ' ' ∨ c = '\t' ∨ c = '\n' ∨ c = '\r'

structure IsDigits (cs : List Char) : Prop where
  digits : ∀ c ∈ cs, c.isDigit = true
  someDigit : cs ≠ []

/-- The digits before the point, of which the first is zero only if there are no others. -/
structure IsWhole (cs : List Char) : Prop extends IsDigits cs where
  noZeroBefore : cs.head? = some '0' → cs = ['0']

inductive IsFraction : List Char → Prop
  | missing : IsFraction []
  | point {ds : List Char} : IsDigits ds → IsFraction ('.' :: ds)

inductive IsExponent : List Char → Prop
  | missing : IsExponent []
  | marked {mark : Char} {sign ds : List Char} : mark = 'e' ∨ mark = 'E' →
      sign = [] ∨ sign = ['+'] ∨ sign = ['-'] → IsDigits ds → IsExponent (mark :: (sign ++ ds))

/-- A number: digits with a minus sign or none before them, and then a fraction and an exponent
if there are any. -/
inductive IsNumber : List Char → Prop
  | parts {sign whole fraction exponent : List Char} : sign = [] ∨ sign = ['-'] →
      IsWhole whole → IsFraction fraction → IsExponent exponent →
      IsNumber (sign ++ (whole ++ (fraction ++ exponent)))

/-! ## Strings -/

/-- The characters that stand for others, or for themselves, behind a backslash. -/
def shortEscapes : List (Char × Char) :=
  [('"', '"'), ('\\', '\\'), ('/', '/'), ('b', '\x08'), ('f', '\x0c'), ('n', '\n'), ('r', '\r'),
    ('t', '\t')]

/-- Four hexadecimal digits and their value. -/
structure IsUnit (n : Nat) (ds : List Char) : Prop where
  four : ds.length = 4
  digits : ∀ c ∈ ds, Numeral.isDigitOf 16 c = true
  value : Numeral.valueOf 16 ds = n

/-- A character of a string and a way to write it. -/
inductive IsSpelling : Char → List Char → Prop
  | plain {c : Char} : 0x20 ≤ c.toNat → c ≠ '"' → c ≠ '\\' → IsSpelling c [c]
  | short {c e : Char} : (e, c) ∈ shortEscapes → IsSpelling c ['\\', e]
  | unit {c : Char} {ds : List Char} : IsUnit c.toNat ds → IsSpelling c ('\\' :: 'u' :: ds)
  | pair {c : Char} {ds es : List Char} : 0x10000 ≤ c.toNat →
      IsUnit (0xD800 + (c.toNat - 0x10000) / 0x400) ds →
      IsUnit (0xDC00 + (c.toNat - 0x10000) % 0x400) es →
      IsSpelling c ('\\' :: 'u' :: (ds ++ '\\' :: 'u' :: es))

inductive IsBody : List Char → List Char → Prop
  | nil : IsBody [] []
  | cons {c : Char} {text spelling body : List Char} : IsSpelling c spelling →
      IsBody text body → IsBody (c :: text) (spelling ++ body)

inductive IsString : List Char → List Char → Prop
  | marked {text body : List Char} : IsBody text body → IsString text ('"' :: (body ++ ['"']))

/-! ## Values -/

/-- A value without brackets or marks. -/
inductive IsBare : Value → List Char → Prop
  | nullWord : IsBare .null "null".toList
  | trueWord : IsBare (.boolean true) "true".toList
  | falseWord : IsBare (.boolean false) "false".toList
  | number {lexeme : List Char} : IsNumber lexeme → IsBare (.number lexeme) lexeme

def closing (named : Bool) : Char := if named then '\x7d' else ']'

abbrev Entry := Option (List Char) × Value

mutual

inductive IsValue : Value → List Char → Prop
  | bare {v : Value} {cs : List Char} : IsBare v cs → IsValue v cs
  | string {text cs : List Char} : IsString text cs → IsValue (.string text) cs
  | emptyArray {space : List Char} : IsSpace space →
      IsValue (.array []) ('[' :: (space ++ [closing false]))
  | array {items : List Value} {space entries : List Char} : IsSpace space →
      IsEntries false (items.map fun v => (none, v)) entries →
      IsValue (.array items) ('[' :: (space ++ entries))
  | emptyObject {space : List Char} : IsSpace space →
      IsValue (.object []) ('\x7b' :: (space ++ [closing true]))
  | object {members : List (List Char × Value)} {space entries : List Char} : IsSpace space →
      IsEntries true (members.map fun m => (some m.1, m.2)) entries →
      IsValue (.object members) ('\x7b' :: (space ++ entries))

/-- A value, behind its name and a colon if it has one. -/
inductive IsEntry : Bool → Entry → List Char → Prop
  | item {v : Value} {cs : List Char} : IsValue v cs → IsEntry false (none, v) cs
  | member {name mark space space' cs : List Char} {v : Value} : IsString name mark →
      IsSpace space → IsSpace space' → IsValue v cs →
      IsEntry true (some name, v) (mark ++ (space ++ ':' :: (space' ++ cs)))

/-- One entry or more with commas between them, up to the closing bracket. -/
inductive IsEntries : Bool → List Entry → List Char → Prop
  | last {named : Bool} {entry : Entry} {cs space : List Char} : IsEntry named entry cs →
      IsSpace space → IsEntries named [entry] (cs ++ (space ++ [closing named]))
  | comma {named : Bool} {entry : Entry} {entries : List Entry} {cs space space' more : List Char} :
      IsEntry named entry cs → IsSpace space → IsSpace space' → IsEntries named entries more →
      IsEntries named (entry :: entries) (cs ++ (space ++ ',' :: (space' ++ more)))

end

/-- A whole text: one value, and nothing else but space. -/
inductive IsText : Value → List Char → Prop
  | value {v : Value} {cs space space' : List Char} : IsSpace space → IsValue v cs →
      IsSpace space' → IsText v (space ++ (cs ++ space'))

end GoTokens.Json
