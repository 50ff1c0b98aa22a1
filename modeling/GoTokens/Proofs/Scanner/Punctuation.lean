import GoTokens.Proofs.Lexeme.Spelled
import GoTokens.Proofs.Scanner.Rescan

/-!
Operators and comments where a scanner stands. What follows a slash decides which of them it
begins (`next_slash`). A line comment goes up to the line end, a block comment up to the first
star and slash that close it, and any other operator is the longest that the text ahead begins
with (`next_operator`).
-/

namespace GoTokens

open Text

namespace Lexeme

variable {c : Char} {cs : List Char}

theorem pair_prefix_iff {a b : Char} : [a, b] <+: c :: cs ↔ c = a ∧ cs.head? = some b := by
  cases cs <;> simp [eq_comm]

theorem atFront_unterminated (hcs : cs.head? = some '*') (h : ¬ Comment.Closed cs) :
    atFront '/' cs = fault .unterminatedComment (cs.length + 1) := by
  rw [atFront, class_slash]
  simp only
  rw [punctuation, if_neg (by simp [hcs]), if_pos ⟨rfl, hcs⟩, blockComment,
    Comment.blockLength?_eq_none_iff.mpr h]

/-- Where there is no comment, there is an operator. -/
theorem exists_operator (hclass : CharClass.of c = .punctuation)
    (hline : ¬ (c = '/' ∧ cs.head? = some '/')) (hblock : ¬ (c = '/' ∧ cs.head? = some '*')) :
    ∃ p, Punct.IsLongest (c :: cs) p ∧ Means c cs (.opSep p) p.spelling.length := by
  have hfirst := CharClass.of_eq_punctuation.mp hclass
  rw [isPunctuation_eq_isSome] at hfirst
  obtain ⟨p, hp⟩ := Punct.exists_isLongest hfirst cs
  exact ⟨p, hp, .operator hline hblock hp⟩

theorem spells_punct (p : Punct) : Spells p.spelling (.opSep p) := by
  have hlongest : Punct.IsLongest p.spelling p :=
    Punct.atFront?_eq_some_iff.mp p.atFront?_spelling
  have hcomment : ¬ ['/', '/'] <+: p.spelling ∧ ¬ ['/', '*'] <+: p.spelling := by
    cases p <;> decide
  obtain ⟨c, cs, hspelling⟩ := List.exists_cons_of_ne_nil p.spelling_ne_nil
  rw [hspelling] at hlongest hcomment
  rw [pair_prefix_iff, pair_prefix_iff] at hcomment
  have hmeans := Means.operator hcomment.1 hcomment.2 hlongest
  rw [hspelling] at hmeans ⊢
  exact ⟨c, cs, rfl, hmeans.atFront⟩

end Lexeme

namespace Scanner

/-- **Comments.** Behind two slashes, all up to the line end is a comment, and the blanks at its
end are left out of its value. Behind a slash and a star, the comment goes up to the first star
and slash from that star on; its line ends and carriage returns are spelled out in its value, which
leaves no blanks to trim. Without such a pair, the rest of the text is passed for nothing. Any other
slash begins an operator. -/
theorem next_slash (s : Scanner) {cs : List Char} (hf : s.failed = false)
    (hrest : s.cursor.rest = '/' :: cs) :
    let text := '/' :: cs
    let here := s.cursor.position
    (cs.head? = some '/' → ∃ span rest, LongestRun (· ≠ '\n') text span rest ∧
      let last := s.cursor.skip span.length
      s.HandsOut (.ok ⟨.comment (String.ofList (trimEnd span)), here, last.position⟩) last ∧
        last.rest = rest ∧ trim span = trimEnd span) ∧
    (cs.head? = some '*' →
      (∀ j, IsLeast {j | Comment.Closes text j} j →
        let spelled :=
          respelled '\r' ['\\', 'r'] (respelled '\n' ['\\', 'n'] (text.take (j + 2)))
        let last := s.cursor.skip (j + 2)
        s.HandsOut (.ok ⟨.comment (String.ofList spelled), here, last.position⟩) last ∧
          last.rest = text.drop (j + 2) ∧ trim spelled = spelled) ∧
      ((∀ j, ¬ Comment.Closes text j) →
        let last := s.cursor.skip text.length
        s.HandsOut (.error ⟨.unterminatedComment, here⟩) last ∧ last.rest = [])) ∧
    (cs.head? ≠ some '/' → cs.head? ≠ some '*' → ∃ p : Punct,
      let last := s.cursor.skip p.spelling.length
      s.HandsOut (.ok ⟨.opSep p, here, last.position⟩) last) := by
  intro text here
  refine ⟨fun hcs => ?_, fun hcs => ⟨fun j hj => ?_, fun hnone => ?_⟩, fun hline hblock => ?_⟩
  · have hrun : LongestRun (· ≠ '\n') text _ _ :=
      longestRun_iff.mpr ⟨rfl, List.takeWhile_append_dropWhile.symm⟩
    refine ⟨_, _, hrun, handsOut_of_means hf hrest (.lineComment rfl hcs hrun),
      Cursor.skip_rest_of_split (hrest.trans hrun.split), ?_⟩
    exact trim_cons (by decide) _
  · obtain ⟨body, rest, rfl, hbody, rfl⟩ := Comment.exists_body_of_isLeast hj
    have htake : text.take (body.length + 1 + 2) = Comment.block body :=
      Comment.take_block '/' body rest
    intro spelled last
    have hspelled : spelled = Comment.onOneLine (Comment.block body) := by
      rw [Comment.onOneLine_eq_respelled, ← htake]
    rw [hspelled]
    exact ⟨handsOut_of_means hf hrest (.blockComment rfl hcs rfl hbody),
      by rw [Cursor.skip_rest, hrest], Comment.trim_onOneLine_block body⟩
  · have hlex := Lexeme.atFront_unterminated hcs (Comment.not_closed_of_not_closes hnone)
    have hout := handsOut_outcome hf hrest (by decide)
    rw [hlex] at hout
    exact ⟨hout, by rw [Cursor.skip_rest, hrest, List.drop_length]⟩
  · obtain ⟨p, -, hmeans⟩ := Lexeme.exists_operator Lexeme.class_slash
      (fun h => hline h.2) (fun h => hblock h.2)
    exact ⟨p, handsOut_of_means hf hrest hmeans⟩

/-- The star that opens this comment does not close it, and neither does the one after it. -/
theorem next_slash_two_lines :
    let s := ofString "/**\r\n*//"
    s.failed = false ∧ s.cursor.rest = '/' :: "**\r\n*//".toList ∧
      s.nextToken.1 = .ok (some ⟨.comment "/**\\r\\n*/", .start, ⟨7, 2, 3⟩⟩) ∧
      s.nextToken.2.cursor.rest = ['/'] := by
  have hrest : (ofString "/**\r\n*//").cursor.rest = '/' :: "**\r\n*//".toList := rfl
  have hleast : IsLeast {j | Comment.Closes ('/' :: "**\r\n*//".toList) j} 5 := by
    refine ⟨by decide, fun j hj => Nat.le_of_not_lt fun hlt => ?_⟩
    have hbefore : ∀ i < 5, ¬ Comment.Closes ('/' :: "**\r\n*//".toList) i := by decide
    exact hbefore j hlt hj
  obtain ⟨-, hblock, -⟩ := next_slash (ofString "/**\r\n*//") rfl hrest
  obtain ⟨hout, hleft, -⟩ := (hblock rfl).1 5 hleast
  refine ⟨rfl, hrest, ?_, ?_⟩
  · rw [hout.nextToken]
    decide
  · rw [hout.nextToken, hout.cursor, hleft]
    decide

/-- **Operators.** Where no comment begins, the operator that is handed out is the one with the
longest spelling among all that the text ahead begins with, and its spelling is what is passed; the
tables that are tried character by character give this operator. Every operator is handed out for
its own spelling. -/
theorem next_operator :
    (∀ (s : Scanner) (c : Char) (cs : List Char), s.failed = false → s.cursor.rest = c :: cs →
      CharClass.of c = .punctuation → ¬ ['/', '/'] <+: c :: cs → ¬ ['/', '*'] <+: c :: cs →
      ∃ p : Punct, (∀ q, Punct.IsLongest (c :: cs) q ↔ q = p) ∧ Punct.byTables? c cs = some p ∧
        let last := s.cursor.skip p.spelling.length
        s.HandsOut (.ok ⟨.opSep p, s.cursor.position, last.position⟩) last ∧
          c :: cs = (TokenValue.opSep p).text.toList ++ last.rest) ∧
    ∀ p : Punct,
      GoTokens.scan p.text = .ok [⟨.opSep p, .start, ⟨p.text.length, 1, p.text.length + 1⟩⟩] := by
  have htext (p : Punct) : p.text.toList = p.spelling := String.toList_ofList
  refine ⟨fun s c cs hf hrest hclass hline hblock => ?_, fun p => ?_⟩
  · obtain ⟨p, hp, hmeans⟩ := Lexeme.exists_operator hclass
      (mt Lexeme.pair_prefix_iff.mpr hline) (mt Lexeme.pair_prefix_iff.mpr hblock)
    have htables : Punct.byTables? c cs = some p := by
      rw [Punct.byTables?_eq, Punct.atFront?_eq_some_iff.mpr hp]
    refine ⟨p, fun q => ⟨fun hq => hq.unique hp, fun hq => hq ▸ hp⟩, htables,
      handsOut_of_means hf hrest hmeans, ?_⟩
    obtain ⟨rest, hsplit⟩ := hp.atFront
    rw [TokenValue.text, htext, Cursor.skip_rest_of_split (hrest.trans hsplit.symm), hsplit]
  · have hspells : Lexeme.Spells (TokenValue.opSep p).text.toList (.opSep p) := by
      rw [TokenValue.text, htext]
      exact Lexeme.spells_punct p
    have hscan := scan_of_spells hspells
    rwa [TokenValue.text] at hscan

/-- A shift and an assignment in one, in front of a sign. -/
theorem next_operator_shift :
    let s := ofString "<<=-1"
    s.failed = false ∧ s.cursor.rest = '<' :: "<=-1".toList ∧
      s.nextToken.1 = .ok (some ⟨.opSep .shlAssign, .start, ⟨3, 1, 4⟩⟩) ∧
      GoTokens.scan "<<=" = .ok [⟨.opSep .shlAssign, .start, ⟨3, 1, 4⟩⟩] := by
  have hrest : (ofString "<<=-1").cursor.rest = '<' :: "<=-1".toList := rfl
  obtain ⟨hread, hscan⟩ := next_operator
  obtain ⟨p, hlongest, -, hout, -⟩ :=
    hread (ofString "<<=-1") '<' "<=-1".toList rfl hrest (by decide +kernel) (by decide) (by decide)
  obtain rfl : .shlAssign = p := (hlongest .shlAssign).mp (Punct.atFront?_eq_some_iff.mp rfl)
  refine ⟨rfl, hrest, ?_, hscan .shlAssign⟩
  rw [hout.nextToken]
  rfl

end Scanner

end GoTokens
