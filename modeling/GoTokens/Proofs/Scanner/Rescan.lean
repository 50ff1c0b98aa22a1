import GoTokens.Proofs.Lexeme.Spelled
import GoTokens.Proofs.Scanner.Outcome
import GoTokens.Proofs.Scanner.Tiling

/-!
The text of a token, scanned again. A text that is one lexeme is scanned to one token
(`scan_of_lexeme`), and for most kinds of tokens the text is a lexeme of the same value
(`scan_text`). The text that is stored of a literal is the literal
itself (`scan_text_literal`), with one exception: blanks are trimmed off its end without
regard to escapes, and where the first of them is escaped, its backslash goes on to escape
the closing mark, so that the text does not end the literal.
-/

namespace GoTokens

open Text

namespace Lexeme

theorem quoted_of_kind {c : Char} {cs : List Char} {value : TokenValue} {n : Nat}
    (h : atFront c cs = token value n) (hkind : value.kind = .string ∨ value.kind = .byte) :
    isQuote c = true ∧ quoted c cs = token value n := by
  have hclass : CharClass.of c = .quote := by
    rw [(atFront_means h).class_eq]
    obtain hkind | hkind := hkind <;> rw [hkind] <;> rfl
  rw [atFront, hclass] at h
  exact ⟨CharClass.isQuote_of_class hclass, h⟩

end Lexeme

/-- A text that is one lexeme is scanned to one token. -/
theorem scan_of_lexeme {c : Char} {body : List Char} {value : TokenValue}
    (h : Lexeme.atFront c body = .token value (body.length + 1)) :
    scan (String.ofList (c :: body)) =
      .ok [⟨value, .start, Position.start.afterAll (c :: body)⟩] := by
  have hgap : Gap [] := fun d hd => by cases hd
  have hread : Reading .start (String.ofList (c :: body)).toList
      [⟨value, .start, Position.start.afterAll (c :: body)⟩] none := by
    have hlex : Lexeme.atFront c (body ++ []) = .token value (body.length + 1) := by
      rwa [List.append_nil]
    have htoken := Reading.token (p := .start) hgap (Lexeme.isBlank_of_token h) hlex (.blank hgap)
    rw [List.append_nil] at htoken
    rw [String.toList_ofList]
    exact htoken
  exact hread.scan

/-- A value whose text is one lexeme is scanned from its text, from the first character to the
last. -/
theorem scan_of_spells {value : TokenValue} (h : Lexeme.Spells value.text.toList value) :
    scan value.text = .ok [⟨value, .start, ⟨value.text.length, 1, value.text.length + 1⟩⟩] := by
  obtain ⟨c, body, htext, hlex⟩ := h
  have hline := Lexeme.notMem_text hlex
  rw [htext, List.length_cons] at hlex
  have hscan := scan_of_lexeme hlex
  rw [← htext, Position.start_afterAll_line hline, String.length_toList, String.ofList_toList]
    at hscan
  exact hscan

/-- **The text of a token**, scanned alone, is one token of the same value again, from the first
character to the last, unless it is a floating-point number or a literal. -/
theorem scan_text {source : String} {t : Token} (h : .ok t ∈ (Scanner.ofString source).drain.1)
    (hkind : t.kind ∈ [.keyword, .ident, .int, .imag, .opSep, .comment]) :
    scan t.text = .ok [⟨t.value, .start, ⟨t.text.length, 1, t.text.length + 1⟩⟩] := by
  obtain ⟨tokens, error, hread⟩ := exists_reading .start source.toList
  rw [hread.drain] at h
  obtain ⟨before, c, body, rest, -, -, hlex, -, -⟩ := hread.lexeme_of_mem (mem_of_mem_itemsOf h)
  exact scan_of_spells ((Lexeme.atFront_means hlex).spells hkind)

/-- A number in another base, and a comment over two lines. -/
theorem scan_text_hexadecimal_comment :
    let items := (Scanner.ofString "0x1F /*a\r\n*/").drain.1
    .ok ⟨.int 31, ⟨0, 1, 1⟩, ⟨4, 1, 5⟩⟩ ∈ items ∧
      .ok ⟨.comment "/*a\\r\\n*/", ⟨5, 1, 6⟩, ⟨12, 2, 3⟩⟩ ∈ items ∧
      scan "31" = .ok [⟨.int 31, .start, ⟨2, 1, 3⟩⟩] ∧
      scan "/*a\\r\\n*/" = .ok [⟨.comment "/*a\\r\\n*/", .start, ⟨9, 1, 10⟩⟩] := by
  intro items
  have hnumber : .ok ⟨.int 31, ⟨0, 1, 1⟩, ⟨4, 1, 5⟩⟩ ∈ items := by decide +kernel
  have hcomment : .ok ⟨.comment "/*a\\r\\n*/", ⟨5, 1, 6⟩, ⟨12, 2, 3⟩⟩ ∈ items := by
    decide +kernel
  have hthirty : (TokenValue.int 31).text = "31" := by decide +kernel
  have hlines : (TokenValue.comment "/*a\\r\\n*/").text = "/*a\\r\\n*/" := rfl
  have hread := scan_text hnumber (by decide)
  have hread' := scan_text hcomment (by decide)
  rw [Token.text, hthirty] at hread
  rw [Token.text, hlines] at hread'
  exact ⟨hnumber, hcomment, hread, hread'⟩

/-! ## Literals -/

/-- The stored text of a literal is scanned to the literal, unless the text ends before it
does. -/
theorem scan_storedText {mark : Char} {body : List Char} (hmark : isQuote mark = true)
    (hbody : Quoted.pending? mark false body = some false) :
    scan (String.ofList (Quoted.storedText mark body)) =
      if Quoted.TrimsEscaped body then .error ⟨.unterminatedLiteral mark, .start⟩
      else .ok [⟨Quoted.value mark body, .start,
        Position.start.afterAll (Quoted.storedText mark body)⟩] := by
  have hclass : CharClass.of mark = .quote ∧ isBlank mark = false := by
    rcases isQuote_cases hmark with rfl | rfl | rfl <;> decide +kernel
  have hfront (cs : List Char) : Lexeme.atFront mark cs = Lexeme.quoted mark cs := by
    rw [Lexeme.atFront, hclass.1]
  have hgap : Gap [] := fun d hd => by cases hd
  let spelled := Quoted.onOneLine (Quoted.kept body)
  have hstored : Quoted.storedText mark body = mark :: (spelled ++ [mark]) :=
    Quoted.storedText_eq hclass.2 body
  obtain ⟨escaped, hkept⟩ := Quoted.pending?_kept hbody
  have hspelled : Quoted.pending? mark false spelled = some escaped :=
    (Quoted.pending?_onOneLine hmark false _).trans hkept
  have hodd : escaped = true ↔ Quoted.TrimsEscaped body := Quoted.pending?_iff_odd hkept
  cases escaped with
  | true =>
    rw [if_pos (hodd.mp rfl)]
    have hlength : Quoted.bodyLength? mark false 0 (spelled ++ [mark]) = none := by
      rw [Quoted.bodyLength?_append hspelled]
      rfl
    have hlex : Lexeme.atFront mark (spelled ++ [mark]) =
        .fault (.unterminatedLiteral mark) ((spelled ++ [mark]).length + 1) := by
      rw [hfront, Lexeme.quoted, hlength]
    have hread : Reading .start (String.ofList (Quoted.storedText mark body)).toList []
        (some ⟨.unterminatedLiteral mark, .start⟩) := by
      rw [String.toList_ofList, hstored]
      exact .fault hgap hclass.2 hlex
    exact hread.scan
  | false =>
    rw [if_neg fun htrims => Bool.false_ne_true (hodd.mpr htrims)]
    have hvalue : Quoted.value mark spelled = Quoted.value mark body := by
      rw [Quoted.value, Quoted.value, Quoted.storedText_kept hclass.2]
    have hlex : Lexeme.atFront mark (spelled ++ [mark]) =
        .token (Quoted.value mark body) ((spelled ++ [mark]).length + 1) := by
      rw [hfront, Lexeme.quoted_of_pending hspelled [], hvalue, List.length_append]
      rfl
    rw [hstored]
    exact scan_of_lexeme hlex

/-- **The stored text of a literal is that literal**, and scanned alone it is one token of the
same kind and value, exactly if the blanks that are trimmed off the end of the literal do not
begin with one that a backslash escapes. If they do, scanning the text alone runs past its
end. -/
theorem scan_text_literal {source : String} {t : Token}
    (h : .ok t ∈ (Scanner.ofString source).drain.1)
    (hkind : t.kind = .string ∨ t.kind = .byte) :
    let body := (t.lexeme source.toList).tail.dropLast
    ((∃ u, scan t.text = .ok [u] ∧ u.kind = t.kind ∧ u.value = t.value) ↔
      ¬ Quoted.TrimsEscaped body) ∧
    (Quoted.TrimsEscaped body → ∃ mark, scan t.text = .error ⟨.unterminatedLiteral mark, .start⟩) := by
  obtain ⟨tokens, error, hread⟩ := exists_reading .start source.toList
  rw [hread.drain] at h
  obtain ⟨c, body, rest, hlexeme, hlex⟩ := hread.lexeme_eq (mem_of_mem_itemsOf h)
  obtain ⟨hmark, hquoted⟩ := Lexeme.quoted_of_kind hlex hkind
  obtain ⟨inner, rest', hsplit, hinner, hvalue, hlength⟩ := Lexeme.quoted_eq_token hquoted
  have hbody : body = inner ++ [c] := by
    rw [List.append_cons] at hsplit
    exact (List.append_inj hsplit (by simp; omega)).1
  have hinside : (t.lexeme source.toList).tail.dropLast = inner := by
    rw [hlexeme, hbody, List.tail_cons, List.dropLast_concat]
  have hscan := scan_storedText hmark hinner
  rw [← Quoted.text_value, ← hvalue] at hscan
  intro body
  rw [show body = inner from hinside]
  by_cases htrims : Quoted.TrimsEscaped inner
  · rw [if_pos htrims] at hscan
    refine ⟨iff_of_false ?_ (not_not_intro htrims), fun _ => ⟨c, hscan⟩⟩
    rintro ⟨u, hu, -⟩
    cases hscan.symm.trans hu
  · rw [if_neg htrims] at hscan
    exact ⟨iff_of_true ⟨_, hscan, rfl, rfl⟩ htrims, fun hnot => absurd hnot htrims⟩

theorem scan_text_literal_behind_escapes :
    .ok ⟨.string "\"\\\\\"", ⟨1, 1, 2⟩, ⟨6, 1, 7⟩⟩ ∈
      (Scanner.ofString "(\"\\\\ \")").drain.1 ∧
    ∃ u, scan "\"\\\\\"" = .ok [u] ∧ u.kind = .string ∧ u.value = .string "\"\\\\\"" := by
  have hmem : .ok ⟨.string "\"\\\\\"", ⟨1, 1, 2⟩, ⟨6, 1, 7⟩⟩ ∈
      (Scanner.ofString "(\"\\\\ \")").drain.1 := by decide +kernel
  exact ⟨hmem, (scan_text_literal hmem (.inl rfl)).1.mpr (by decide +kernel)⟩

/-- A blank that is escaped at the end of a literal is lost, and the literal with it. -/
theorem scan_text_escaped_blank : ¬ ∀ (source : String) (t : Token),
    .ok t ∈ (Scanner.ofString source).drain.1 → t.kind = .string ∨ t.kind = .byte →
      ∃ u, scan t.text = .ok [u] ∧ u.kind = t.kind ∧ u.value = t.value := by
  intro hall
  have hmem : .ok ⟨.string "\"a\\\"", ⟨0, 1, 1⟩, ⟨5, 1, 6⟩⟩ ∈
      (Scanner.ofString "\"a\\ \"").drain.1 := by decide +kernel
  have herror : scan "\"a\\\"" = .error ⟨.unterminatedLiteral '"', ⟨0, 1, 1⟩⟩ := by
    decide +kernel
  obtain ⟨u, hu, -⟩ := hall _ _ hmem (.inl rfl)
  cases herror.symm.trans hu

end GoTokens
