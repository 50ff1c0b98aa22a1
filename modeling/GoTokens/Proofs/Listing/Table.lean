import GoTokens.Listing.Table
import GoTokens.Proofs.Binary64.Text
import GoTokens.Proofs.Lookahead

/-!
What can be read back from a table. A position and a kind have no spaces, so that they end where
the spaces behind them begin, however wide they are; a kind is no wider than its column, so that
the value begins right behind the column (`readRow_line`). Rows without line ends in their texts
are the lines of the table, under the header (`toList_render`, `splitOn_lines`).
-/

namespace GoTokens.Table

open Lookahead

structure Cells where
  position : String
  kind : String
  value : String
deriving DecidableEq, Repr

namespace Cells

def of (style : PositionStyle) (t : Token) : Cells := ⟨style.text t.start, t.kind.name, t.text⟩

/-- A text and the spaces behind it, up to the next column. -/
def field (text : String) (rest : List Char) : List Char :=
  text.toList ++ (List.replicate (columnWidth - text.length + 1) ' ' ++ rest)

/-- The row without its line end. -/
def line (cells : Cells) : List Char :=
  field cells.position (field cells.kind cells.value.toList)

/-- The position and the kind are words, and the kind does not go beyond its column. -/
structure Fits (cells : Cells) : Prop where
  position : ' ' ∉ cells.position.toList
  kind : ' ' ∉ cells.kind.toList
  someKind : cells.kind ≠ ""
  narrow : cells.kind.length ≤ columnWidth

end Cells

/-- The texts of a row. The position goes up to the first space, the kind is the next word, and
the value begins behind its column and one more space. -/
def readRow (line : List Char) : Cells :=
  let kind := (line.dropWhile (· ≠ ' ')).dropWhile (· = ' ')
  ⟨String.ofList (line.takeWhile (· ≠ ' ')), String.ofList (kind.takeWhile (· ≠ ' ')),
    String.ofList (kind.drop (columnWidth + 1))⟩

namespace Cells

theorem takeWhile_field {text : String} (h : ' ' ∉ text.toList) (rest : List Char) :
    (field text rest).takeWhile (· ≠ ' ') = text.toList := by
  refine takeWhile_append_eq.mpr ⟨fun c hc => ?_, fun c hc => ?_⟩
  · have hne : c ≠ ' ' := fun heq => h (heq ▸ hc)
    exact decide_eq_true hne
  · rw [List.replicate_succ, List.cons_append, List.head?_cons] at hc
    rw [← Option.some.inj hc]
    rfl

theorem dropWhile_field {text : String} (h : ' ' ∉ text.toList) (rest : List Char) :
    (field text rest).dropWhile (· ≠ ' ') =
      List.replicate (columnWidth - text.length + 1) ' ' ++ rest :=
  dropWhile_append_eq (takeWhile_field h rest)

theorem drop_field {text : String} (h : text.length ≤ columnWidth) (rest : List Char) :
    (field text rest).drop (columnWidth + 1) = rest := by
  rw [field, ← List.append_assoc, List.drop_left']
  rw [List.length_append, List.length_replicate, String.length_toList]
  omega

theorem readRow_line {cells : Cells} (h : cells.Fits) : readRow cells.line = cells := by
  have hkind : (cells.line.dropWhile (· ≠ ' ')).dropWhile (· = ' ') =
      field cells.kind cells.value.toList := by
    rw [line, dropWhile_field h.position, List.dropWhile_append_of_pos]
    · cases hword : cells.kind.toList with
      | nil => exact absurd (String.toList_eq_nil_iff.mp hword) h.someKind
      | cons c cs =>
        have hc : c ≠ ' ' := fun heq => h.kind (hword ▸ heq ▸ List.mem_cons_self ..)
        rw [field, hword, List.cons_append, List.dropWhile_cons_of_neg (by simpa using hc)]
    · intro c hc
      exact decide_eq_true (List.eq_of_mem_replicate hc)
  unfold readRow
  dsimp only
  rw [hkind, takeWhile_field h.kind, drop_field h.narrow, line, takeWhile_field h.position,
    String.ofList_toList, String.ofList_toList, String.ofList_toList]

theorem notMem_line {cells : Cells} (hposition : '\n' ∉ cells.position.toList)
    (hkind : '\n' ∉ cells.kind.toList) (hvalue : '\n' ∉ cells.value.toList) :
    '\n' ∉ cells.line := by
  have hspaces (n : Nat) : '\n' ∉ List.replicate n ' ' := by
    intro hmem
    exact absurd (List.eq_of_mem_replicate hmem) (by decide)
  simp only [line, field, List.mem_append, not_or]
  exact ⟨hposition, hspaces _, hkind, hspaces _, hvalue⟩

end Cells

theorem mem_text {style : PositionStyle} {p : Position} {c : Char}
    (h : c ∈ (style.text p).toList) : c.isDigit = true ∨ c = ':' := by
  have hdigits {n : Nat} (h : c ∈ (toString n).toList) : c.isDigit = true :=
    (Json.isDigits_toString n).digits c h
  have hcolon (h : c ∈ ":".toList) : c = ':' := List.mem_singleton.mp h
  have hlineColumn (h : c ∈ p.lineColumn.toList) : c.isDigit = true ∨ c = ':' := by
    simp only [Position.lineColumn, String.toList_append, List.mem_append] at h
    obtain (h | h) | h := h
    · exact .inl (hdigits h)
    · exact .inr (hcolon h)
    · exact .inl (hdigits h)
  cases style with
  | lineColumn => exact hlineColumn h
  | offsetLineColumn =>
    have htext : c ∈ p.text.toList := h
    simp only [Position.text, String.toList_append, List.mem_append] at htext
    obtain (h | h) | h := htext
    · exact .inl (hdigits h)
    · exact .inr (hcolon h)
    · exact hlineColumn h

theorem notMem_text_position {style : PositionStyle} {p : Position} {c : Char}
    (hdigit : c.isDigit = false) (hcolon : c ≠ ':') : c ∉ (style.text p).toList := by
  intro h
  obtain h | h := mem_text h
  · cases h.symm.trans hdigit
  · exact hcolon h

namespace Cells

theorem fits_of (style : PositionStyle) (t : Token) : (of style t).Fits where
  position := notMem_text_position rfl (by decide)
  kind := by
    show ' ' ∉ t.kind.name.toList
    cases t.kind <;> decide
  someKind := by
    show t.kind.name ≠ ""
    cases t.kind <;> decide
  narrow := by
    show t.kind.name.length ≤ columnWidth
    cases t.kind <;> decide

theorem notMem_line_of (style : PositionStyle) {t : Token} (h : '\n' ∉ t.text.toList) :
    '\n' ∉ (of style t).line := by
  refine notMem_line (notMem_text_position rfl (by decide)) ?_ h
  show '\n' ∉ t.kind.name.toList
  cases t.kind <;> decide

end Cells

theorem toList_line (position kind value : String) :
    (Table.line position kind value).toList = Cells.line ⟨position, kind, value⟩ ++ ['\n'] := by
  simp [Table.line, padded, Cells.line, Cells.field, List.replicate_succ']

theorem render_eq (style : PositionStyle) (tokens : List Token) :
    render style tokens = header ++ String.join (tokens.map (row style)) := by
  have hfold (rows : List String) (text : String) :
      rows.foldl (· ++ ·) text = text ++ String.join rows := by
    induction rows generalizing text with
    | nil => simp
    | cons row rows ih => rw [List.foldl_cons, ih, String.join_cons, String.append_assoc]
  exact hfold _ _

theorem toList_render (style : PositionStyle) (tokens : List Token) :
    (render style tokens).toList =
      (Cells.line ⟨"Position", "Type", "Value"⟩ ::
        tokens.map fun t => (Cells.of style t).line).flatMap (· ++ ['\n']) := by
  have hrow (t : Token) : (row style t).toList = (Cells.of style t).line ++ ['\n'] :=
    toList_line ..
  rw [render_eq, String.toList_append, String.toList_join, List.flatMap_map, header, toList_line,
    List.flatMap_cons, List.flatMap_map]
  simp only [hrow]

theorem splitOn_lines {lines : List (List Char)} (h : ∀ line ∈ lines, '\n' ∉ line) :
    (lines.flatMap (· ++ ['\n'])).splitOn '\n' = lines ++ [[]] := by
  induction lines with
  | nil => rfl
  | cons line lines ih =>
    have hline : ∀ c ∈ line, (c == '\n') = false := by
      intro c hc
      exact beq_eq_false_iff_ne.mpr fun heq => h line (List.mem_cons_self ..) (heq ▸ hc)
    rw [List.flatMap_cons, List.append_assoc, List.singleton_append, List.splitOn_eq_splitOnP,
      List.splitOnP_append_cons_of_forall_mem hline _ (beq_self_eq_true _),
      ← List.splitOn_eq_splitOnP, ih fun line hline => h line (List.mem_cons_of_mem _ hline)]
    rfl

theorem count_lines {lines : List (List Char)} (h : ∀ line ∈ lines, '\n' ∉ line) :
    (lines.flatMap (· ++ ['\n'])).count '\n' = lines.length := by
  induction lines with
  | nil => rfl
  | cons line lines ih =>
    rw [List.flatMap_cons, List.count_append, List.count_append,
      List.count_eq_zero_of_not_mem (h line (List.mem_cons_self ..)), List.count_singleton_self,
      ih fun line hline => h line (List.mem_cons_of_mem _ hline), List.length_cons]
    omega

end GoTokens.Table
