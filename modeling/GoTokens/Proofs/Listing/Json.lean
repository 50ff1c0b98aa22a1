import GoTokens.Listing.Json
import GoTokens.Proofs.Binary64.Nearest
import GoTokens.Proofs.Binary64.Text
import GoTokens.Proofs.Json.Reader
import GoTokens.Proofs.Lexeme.NumberParts

/-!
Listings in the grammar of JSON. An escaped character is one of the spellings that a string may
have for it (`isSpelling_escaped`), and what a block puts between and around its items is space and
commas (`isEntries_map`). So a list of records is the text of an array of objects
(`isText_renderRecords`), which is decoded to them (`decode_render`), and those of a listing
describe its tokens (`describes_ofToken`).
-/

namespace GoTokens.Json

theorem isUnit_digits {n : Nat} (h : n < 0x100) :
    IsUnit n ['0', '0', Nat.digitChar (n / 16), Nat.digitChar (n % 16)] := by
  have hhigh := Numeral.digitValue?_digitChar (d := n / 16) (by omega)
  have hlow := Numeral.digitValue?_digitChar (d := n % 16) (by omega)
  refine ⟨rfl, fun c hc => ?_, ?_⟩
  · simp only [List.mem_cons, List.not_mem_nil, or_false] at hc
    obtain rfl | rfl | rfl | rfl := hc
    · rfl
    · rfl
    · rw [Numeral.isDigitOf, hhigh, Option.any_some, decide_eq_true_eq]
      omega
    · rw [Numeral.isDigitOf, hlow, Option.any_some, decide_eq_true_eq]
      omega
  · have hzero : Numeral.digitValue? '0' = some 0 := rfl
    simp only [Numeral.valueOf, List.foldl_cons, List.foldl_nil, hzero, hhigh, hlow,
      Option.getD_some]
    omega

theorem isSpelling_escaped (c : Char) : IsSpelling c (escaped c) := by
  have hshort {e d : Char} (h : c = d) (hmem : (e, d) ∈ shortEscapes) : IsSpelling c ['\\', e] := by
    subst h
    exact .short hmem
  unfold escaped
  split_ifs with hmark hbackslash hback hform hline hreturn htab hcontrol
  · exact hshort hmark (by decide)
  · exact hshort hbackslash (by decide)
  · exact hshort hback (by decide)
  · exact hshort hform (by decide)
  · exact hshort hline (by decide)
  · exact hshort hreturn (by decide)
  · exact hshort htab (by decide)
  · exact .unit (isUnit_digits (by omega))
  · exact .plain (by omega) hmark hbackslash

theorem isBody_flatMap (text : List Char) : IsBody text (text.flatMap escaped) := by
  induction text with
  | nil => exact .nil
  | cons c text ih => exact .cons (isSpelling_escaped c) ih

theorem isString_quoted (text : List Char) : IsString text (quoted text) :=
  .marked (isBody_flatMap text)

theorem isSpace_nil : IsSpace [] := by
  intro c hc
  cases hc

theorem isSpace_newLine (n : Nat) : IsSpace ('\n' :: List.replicate n ' ') := by
  intro c hc
  obtain rfl | hc := List.mem_cons.mp hc
  · exact .inr (.inr (.inl rfl))
  · exact .inl (List.eq_of_mem_replicate hc)

section

variable {α : Type} {text : α → List Char}

/-- Entries with the same space before each of them but the first. -/
theorem isEntries_map {named : Bool} {entry : α → Entry} {space last : List Char}
    (hspace : IsSpace space) (hlast : IsSpace last) (x : α) {xs : List α}
    (h : ∀ y ∈ x :: xs, IsEntry named (entry y) (text y)) :
    IsEntries named ((x :: xs).map entry)
      (text x ++ (xs.flatMap (fun y => ',' :: (space ++ text y)) ++ (last ++ [closing named]))) := by
  induction xs generalizing x with
  | nil => exact .last (h x (List.mem_cons_self ..)) hlast
  | cons y ys ih =>
    have hrest := ih y fun z hz => h z (List.mem_cons_of_mem _ hz)
    rw [List.flatMap_cons, List.append_assoc, List.cons_append, List.append_assoc]
    exact .comma (h x (List.mem_cons_self ..)) isSpace_nil hspace hrest

theorem isValue_items {value : α → Value} {xs : List α} (indent : Nat)
    (h : ∀ x ∈ xs, IsValue (value x) (text x)) :
    IsValue (.array (xs.map value)) (block '[' ']' indent (xs.map text)) := by
  cases xs with
  | nil => exact .emptyArray isSpace_nil
  | cons x xs =>
    have hentries := isEntries_map (isSpace_newLine (indent + 2)) (isSpace_newLine indent) x
      fun y hy => IsEntry.item (h y hy)
    simp only [List.map_cons, block, List.append_assoc, List.flatMap_map]
    refine .array (isSpace_newLine (indent + 2)) ?_
    rw [List.map_cons, List.map_map]
    exact hentries

theorem isValue_members {value : α → Value} {name : α → List Char} {xs : List α} (indent : Nat)
    (h : ∀ x ∈ xs, IsValue (value x) (text x)) :
    IsValue (.object (xs.map fun x => (name x, value x)))
      (block '\x7b' '\x7d' indent (xs.map fun x => quoted (name x) ++ [':', ' '] ++ text x)) := by
  have hmember : ∀ x ∈ xs, IsEntry true (some (name x), value x)
      (quoted (name x) ++ [':', ' '] ++ text x) := by
    intro x hx
    have hblank : IsSpace [' '] := by
      intro c hc
      exact .inl (List.mem_singleton.mp hc)
    rw [List.append_assoc]
    exact .member (isString_quoted _) isSpace_nil hblank (h x hx)
  cases xs with
  | nil => exact .emptyObject isSpace_nil
  | cons x xs =>
    have hentries := isEntries_map (isSpace_newLine (indent + 2)) (isSpace_newLine indent) x hmember
    simp only [List.map_cons, block, List.append_assoc, List.flatMap_map] at hentries ⊢
    refine .object (isSpace_newLine (indent + 2)) ?_
    rw [List.map_cons, List.map_map]
    exact hentries

end

/-! ## Records -/

namespace Scalar

def value : Scalar → Value
  | null => .null
  | number lexeme => .number lexeme
  | string text => .string text

/-- The text of a number is one. -/
def Proper : Scalar → Prop
  | number lexeme => IsNumber lexeme
  | _ => True

theorem isValue_render {s : Scalar} (h : s.Proper) : IsValue s.value s.render := by
  cases s with
  | null => exact .bare .nullWord
  | number lexeme => exact .bare (.number h)
  | string text => exact .string (isString_quoted text)

end Scalar

def Record.value (record : Record) : Value :=
  .object (record.map fun field => (field.1.toList, field.2.value))

theorem isValue_renderRecord {record : Record} (h : ∀ field ∈ record, field.2.Proper) :
    IsValue record.value (renderRecord record) :=
  isValue_members 2 fun field hfield => Scalar.isValue_render (h field hfield)

/-- A list of records is one text, and the array of their objects. -/
theorem isText_renderRecords {records : List Record}
    (h : ∀ record ∈ records, ∀ field ∈ record, field.2.Proper) :
    IsText (.array (records.map Record.value)) (renderRecords records) := by
  have hvalue := isValue_items 0 fun record hrecord => isValue_renderRecord (h record hrecord)
  have htext := IsText.value isSpace_nil hvalue isSpace_nil
  rw [List.nil_append, List.append_nil] at htext
  exact htext

/-! ## Tokens -/

theorem isNumber_toDigits (n : Nat) : IsNumber (Nat.toDigits 10 n) := by
  have hparts := IsNumber.parts (.inl rfl) (isWhole_toDigits n) .missing .missing
  rw [List.nil_append, List.append_nil, List.append_nil] at hparts
  exact hparts

theorem proper_ofFloat (x : Binary64) : (ofFloat x).Proper := by
  unfold ofFloat
  split
  · trivial
  · exact Binary64.isNumber_finiteText _ x

theorem proper_ofToken (t : Token) : ∀ field ∈ ofToken t, field.2.Proper := by
  have hvalue : (ofValue t.value).Proper := by
    cases t.value with
    | int n => exact isNumber_toDigits n
    | float x => exact proper_ofFloat x
    | _ => trivial
  intro field hfield
  simp only [ofToken, List.mem_cons, List.not_mem_nil, or_false] at hfield
  obtain rfl | rfl | rfl | rfl | rfl := hfield
  · exact isNumber_toDigits _
  · exact isNumber_toDigits _
  · exact isNumber_toDigits _
  · trivial
  · exact hvalue

/-- How the value of a token is shown: an integer by its digits, a floating-point number as a
number unless it is none that is finite, everything else by its text. -/
inductive Shows : TokenValue → Value → Prop
  | int {n : Nat} : Shows (.int n) (.number (toString n).toList)
  | finite {x : Binary64} {lexeme : List Char} : x.IsFinite → IsNumber lexeme →
      Shows (.float x) (.number lexeme)
  | notFinite {x : Binary64} : ¬ x.IsFinite → Shows (.float x) .null
  | text {value : TokenValue} : value.kind ≠ .int → value.kind ≠ .float →
      Shows value (.string value.text.toList)

/-- The object of a token: the place where it begins, its kind and its value. -/
def Describes (t : Token) (v : Value) : Prop :=
  ∃ value, Shows t.value value ∧ v = .object [
    ("offset".toList, .number (toString t.start.offset).toList),
    ("line".toList, .number (toString t.start.line).toList),
    ("col".toList, .number (toString t.start.column).toList),
    ("kind".toList, .string t.kind.name.toList),
    ("value".toList, value)]

theorem shows_ofFloat (x : Binary64) : Shows (.float x) (ofFloat x).value := by
  have hiff : (x.isNaN || x.isInfinite) = true ↔ ¬ x.IsFinite := by
    rw [Bool.or_eq_true, Binary64.isNaN, Binary64.isInfinite, decide_eq_true_eq, beq_iff_eq,
      Binary64.IsFinite]
    omega
  unfold ofFloat
  split
  · exact .notFinite (hiff.mp ‹_›)
  · exact .finite (not_not.mp (mt hiff.mpr ‹_›)) (Binary64.isNumber_finiteText _ x)

theorem value_ofNat (n : Nat) : (ofNat n).value = .number (toString n).toList := by
  rw [Nat.toString_eq_ofList_toDigits, String.toList_ofList]
  rfl

theorem describes_ofToken (t : Token) : Describes t (Record.value (ofToken t)) := by
  have hshows : Shows t.value (ofValue t.value).value := by
    cases t.value with
    | int n => exact value_ofNat n ▸ .int
    | float x => exact shows_ofFloat x
    | _ => exact .text (by simp [TokenValue.kind]) (by simp [TokenValue.kind])
  refine ⟨_, hshows, ?_⟩
  rw [← value_ofNat, ← value_ofNat, ← value_ofNat]
  rfl

/-- What is written of tokens is decoded to the objects of their records. -/
theorem decode_render (tokens : List Token) : ∃ text, (render tokens).toList = text ++ ['\n'] ∧
    decode? text = some (.array (tokens.map fun t => Record.value (ofToken t))) := by
  have htext : IsText (.array ((tokens.map ofToken).map Record.value))
      (renderRecords (tokens.map ofToken)) := by
    refine isText_renderRecords fun record hrecord => ?_
    obtain ⟨t, -, rfl⟩ := List.mem_map.mp hrecord
    exact proper_ofToken t
  rw [List.map_map] at htext
  exact ⟨_, String.toList_ofList, decode?_of htext⟩

end GoTokens.Json
