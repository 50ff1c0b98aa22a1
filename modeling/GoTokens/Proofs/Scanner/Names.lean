import GoTokens.Proofs.Scanner.Rescan

/-!
Names. A name is a word if it begins like one and goes on like one (`IsWord`), which can be told
from its characters one by one (`isWord_iff`). Words are what is scanned to one keyword or
identifier with the same text (`scan_word`, `ofWord_of_scan`), so the tests on names agree with
the scanner (`names_scan`).
-/

namespace GoTokens

open Text

/-- A character that a word can begin with, and characters that it can go on with. -/
def IsWord (chars : List Char) : Prop :=
  ∃ c cs, chars = c :: cs ∧ isWordStart c = true ∧ ∀ d ∈ cs, isWordPart d = true

section

variable {name : String} {chars : List Char}

theorem isWordStart_iff {c : Char} :
    isWordStart c = true ↔ isAlphabetic c = true ∨ c = '_' := by
  simp [isWordStart, or_comm]

theorem isWordPart_iff {c : Char} :
    isWordPart c = true ↔ isAlphabetic c = true ∨ c = '_' ∨ isNumeric c = true := by
  rw [isWordPart, Bool.or_eq_true, Bool.or_eq_true, beq_iff_eq, or_assoc, or_left_comm]

/-- Words, one character after the other. Digits may stand anywhere but at the front. -/
theorem isWord_iff : IsWord chars ↔ chars ≠ [] ∧ ∀ i c, chars[i]? = some c →
    isAlphabetic c = true ∨ c = '_' ∨ (0 < i ∧ isNumeric c = true) := by
  constructor
  · rintro ⟨c, cs, rfl, hc, hcs⟩
    refine ⟨List.cons_ne_nil c cs, fun i d hd => ?_⟩
    cases i with
    | zero =>
      obtain rfl : c = d := Option.some.inj hd
      exact (isWordStart_iff.mp hc).imp_right .inl
    | succ i =>
      have hpart := isWordPart_iff.mp (hcs d (List.mem_of_getElem? hd))
      exact hpart.imp_right (Or.imp_right fun hnumeric => ⟨i.succ_pos, hnumeric⟩)
  · rintro ⟨hne, hall⟩
    obtain ⟨c, cs, rfl⟩ := List.exists_cons_of_ne_nil hne
    refine ⟨c, cs, rfl, isWordStart_iff.mpr ?_, fun d hd => isWordPart_iff.mpr ?_⟩
    · exact (hall 0 c rfl).imp_right fun h => h.resolve_right fun h => absurd h.1 (by decide)
    · obtain ⟨i, hi⟩ := List.getElem?_of_mem hd
      exact (hall (i + 1) d hi).imp_right (Or.imp_right And.right)

theorem isIdentifier_iff :
    isIdentifier name = true ↔ isKeyword name = false ∧ IsWord name.toList := by
  rw [isIdentifier, Bool.and_eq_true, Bool.not_eq_true']
  refine and_congr_right fun _ => ?_
  cases name.toList with
  | nil => simp [IsWord]
  | cons c cs => simp [IsWord]

theorem isWord_keyword (k : Keyword) : IsWord k.spelling.toList := by
  have hall : (Keyword.all.all fun k => k.spelling.toList.head?.any isWordStart &&
      k.spelling.toList.tail.all isWordPart) = true := by
    decide +kernel
  obtain ⟨hfirst, hrest⟩ := (Bool.and_eq_true _ _).mp (List.all_eq_true.mp hall k k.mem_all)
  obtain ⟨c, hc, hstart⟩ := (Option.any_eq_true _ _).mp hfirst
  obtain ⟨cs, hsplit⟩ := List.head?_eq_some_iff.mp hc
  rw [hsplit, List.tail_cons] at hrest
  exact ⟨c, cs, hsplit, hstart, List.all_eq_true.mp hrest⟩

theorem ofWord_eq_keyword {k : Keyword} :
    TokenValue.ofWord name = .keyword k ↔ k.spelling = name := by
  rw [← Keyword.ofSpelling?_eq_some, TokenValue.ofWord]
  cases Keyword.ofSpelling? name <;> simp

theorem ofWord_eq_ident : TokenValue.ofWord name = .ident name ↔ isKeyword name = false := by
  rw [isKeyword, TokenValue.ofWord]
  cases Keyword.ofSpelling? name <;> simp

theorem isKeyword_iff : isKeyword name = true ↔ ∃ k : Keyword, k.spelling = name := by
  simp only [isKeyword, Option.isSome_iff_exists, Keyword.ofSpelling?_eq_some]

theorem isKeyword_iff_wordKind : isKeyword name = true ↔ wordKind name = .keyword := by
  rw [isKeyword, wordKind, TokenValue.ofWord]
  cases Keyword.ofSpelling? name <;> simp [TokenValue.kind]

theorem IsWord.spells (h : IsWord chars) :
    Lexeme.Spells chars (.ofWord (String.ofList chars)) := by
  obtain ⟨c, cs, rfl, hc, hcs⟩ := h
  have hrun : LongestRun isWordPart (c :: cs) (c :: cs) [] := by
    refine ⟨(List.append_nil _).symm, fun d hd => ?_, by simp⟩
    obtain rfl | hd := List.mem_cons.mp hd
    · exact isWordPart_of_isWordStart hc
    · exact hcs d hd
  exact ⟨c, cs, rfl, (Lexeme.Means.word hc hrun).atFront⟩

theorem scan_word (h : IsWord name.toList) : ∃ t, scan name = .ok [t] ∧ t.value = .ofWord name := by
  have htext := TokenValue.text_ofWord name
  have hspells : Lexeme.Spells (TokenValue.ofWord name).text.toList (.ofWord name) := by
    rw [htext]
    simpa only [String.ofList_toList] using h.spells
  have hscan := scan_of_spells hspells
  rw [htext] at hscan
  exact ⟨_, hscan, rfl⟩

/-- A keyword or an identifier is the word of its text, wherever it is read. -/
theorem ofWord_of_scan {tokens : List Token} {t : Token} (h : scan name = .ok tokens)
    (ht : t ∈ tokens) (hkind : Lexeme.firstClass t.kind = .wordStart) :
    IsWord t.text.toList ∧ t.value = .ofWord t.text := by
  obtain ⟨before, c, body, rest, -, -, hlex, -, -⟩ := (Reading.of_scan h).lexeme_of_mem ht
  have hclass : CharClass.of c = .wordStart := (Lexeme.atFront_means hlex).class_eq.trans hkind
  rw [Lexeme.atFront, hclass] at hlex
  obtain ⟨hvalue, -⟩ := Lexeme.token.inj hlex
  have htext : t.text = String.ofList (c :: (body ++ rest).takeWhile isWordPart) := by
    rw [Token.text, ← hvalue, TokenValue.text_ofWord]
  refine ⟨?_, by rw [htext, hvalue]⟩
  rw [htext, String.toList_ofList]
  exact ⟨c, _, rfl, CharClass.isWordStart_of_class hclass, fun d hd => List.mem_takeWhile_imp hd⟩

end

/-! ## Names and the scanner -/

/-- **Names.** The tests on names say what scanning a name alone gives: one identifier with that
name, or one keyword with that spelling. In front of a word, the longest run of its characters is
handed out, as a keyword or an identifier. -/
theorem names_scan :
    (∀ name : String,
      (isIdentifier name = true ↔ ∃ t, scan name = .ok [t] ∧ t.value = .ident name) ∧
      (isIdentifier name = true ↔ name ≠ "" ∧ isKeyword name = false ∧
        ∀ i c, name.toList[i]? = some c →
          isAlphabetic c = true ∨ c = '_' ∨ (0 < i ∧ isNumeric c = true)) ∧
      (isKeyword name = true ↔ wordKind name = .keyword) ∧
      (isKeyword name = true ↔
        ∃ t k, scan name = .ok [t] ∧ t.value = .keyword k ∧ k.spelling = name) ∧
      (∀ t k, scan name = .ok [t] → t.value = .keyword k → k.spelling = name →
        Keyword.ofSpelling? name = some k)) ∧
    ∀ (s : Scanner) (c : Char) (cs : List Char), s.failed = false → s.cursor.rest = c :: cs →
      CharClass.of c = .wordStart → ∃ run rest value, LongestRun isWordPart (c :: cs) run rest ∧
        let last := s.cursor.skip run.length
        s.HandsOut (.ok ⟨value, s.cursor.position, last.position⟩) last ∧ last.rest = rest ∧
        let word := String.ofList run
        value.kind = wordKind word ∧ value.text = word ∧
          (isKeyword word = true → ∃ k : Keyword, value = .keyword k ∧ k.spelling = word) ∧
          (isKeyword word = false → value = .ident word) := by
  refine ⟨fun name => ⟨⟨fun h => ?_, ?_⟩, ?_, isKeyword_iff_wordKind, ⟨fun h => ?_, ?_⟩, ?_⟩,
    fun s c cs hf hrest hclass => ?_⟩
  · obtain ⟨hkeyword, hword⟩ := isIdentifier_iff.mp h
    rw [← ofWord_eq_ident.mpr hkeyword]
    exact scan_word hword
  · rintro ⟨t, hscan, hvalue⟩
    have hkind : Lexeme.firstClass t.kind = .wordStart := by rw [Token.kind, hvalue]; rfl
    have htext : t.text = name := by rw [Token.text, hvalue]; rfl
    obtain ⟨hword, hof⟩ := ofWord_of_scan hscan (List.mem_singleton.mpr rfl) hkind
    rw [htext] at hword hof
    exact isIdentifier_iff.mpr ⟨ofWord_eq_ident.mp (hof.symm.trans hvalue), hword⟩
  · rw [isIdentifier_iff, isWord_iff, ne_eq, String.toList_eq_nil_iff]
    tauto
  · obtain ⟨k, rfl⟩ := isKeyword_iff.mp h
    obtain ⟨t, hscan, hvalue⟩ := scan_word (isWord_keyword k)
    exact ⟨t, k, hscan, hvalue.trans (ofWord_eq_keyword.mpr rfl), rfl⟩
  · rintro ⟨t, k, -, -, hspelling⟩
    exact isKeyword_iff.mpr ⟨k, hspelling⟩
  · intro t k _ _ hspelling
    exact Keyword.ofSpelling?_eq_some.mpr hspelling
  · have hc := CharClass.isWordStart_of_class hclass
    have hrun : LongestRun isWordPart (c :: cs) _ _ :=
      longestRun_iff.mpr ⟨rfl, List.takeWhile_append_dropWhile.symm⟩
    refine ⟨_, _, _, hrun, Scanner.handsOut_of_means hf hrest (.word hc hrun),
      Cursor.skip_rest_of_split (hrest.trans hrun.split), rfl, TokenValue.text_ofWord _,
      fun hkeyword => ?_, ofWord_eq_ident.mpr⟩
    obtain ⟨k, hspelling⟩ := isKeyword_iff.mp hkeyword
    exact ⟨k, ofWord_eq_keyword.mpr hspelling, hspelling⟩

/-- A keyword alone, and at the front of a name that ends in a digit of another script. -/
theorem names_scan_func :
    let s := Scanner.ofString "func² := 1"
    (∃ t k, scan "func" = .ok [t] ∧ t.value = .keyword k ∧ Keyword.ofSpelling? "func" = some k) ∧
      (∃ t, scan "func²" = .ok [t] ∧ t.value = .ident "func²") ∧
      s.failed = false ∧ s.cursor.rest = 'f' :: "unc² := 1".toList ∧
      s.nextToken.1 = .ok (some ⟨.ident "func²", .start, ⟨5, 1, 6⟩⟩) := by
  have hrest : (Scanner.ofString "func² := 1").cursor.rest = 'f' :: "unc² := 1".toList := rfl
  obtain ⟨hnames, hread⟩ := names_scan
  obtain ⟨-, -, -, hkeyword, hspelled⟩ := hnames "func"
  obtain ⟨t, k, hscan, hvalue, hspelling⟩ := hkeyword.mp (by decide)
  refine ⟨⟨t, k, hscan, hvalue, hspelled t k hscan hvalue hspelling⟩,
    (hnames "func²").1.mp (by decide +kernel), rfl, hrest, ?_⟩
  obtain ⟨run, rest, value, hrun, hout, -, -, -, -, hident⟩ :=
    hread (Scanner.ofString "func² := 1") 'f' "unc² := 1".toList rfl hrest (by decide +kernel)
  obtain rfl : run = "func²".toList := (longestRun_iff.mp hrun).1.trans (by decide +kernel)
  obtain rfl : value = .ident "func²" := hident (by decide)
  rw [hout.nextToken]
  rfl

end GoTokens
