import GoTokens.Proofs.Lexeme.Meaning
import GoTokens.Proofs.Lexeme.Text

/-!
Texts that are one lexeme. The text of a token is one that means the token again (`Means.spells`):
a word, an imaginary number or an operator is shown as it was read, an integer in decimal digits,
and a comment on one line. Floating-point numbers and literals are left out here, since the digits
of the first may be those of an integer, and the second may lose what was escaped.
-/

namespace GoTokens

open Text

namespace Lexeme

/-- The text is one lexeme, and means the value. -/
def Spells (text : List Char) (value : TokenValue) : Prop :=
  ∃ c cs, text = c :: cs ∧ atFront c cs = token value text.length

variable {c : Char} {cs : List Char} {value : TokenValue} {n : Nat}

theorem spells_of_front {text rest : List Char} (h : atFront c cs = token value text.length)
    (hsplit : c :: cs = text ++ rest) : Spells text value := by
  obtain ⟨body, rest', rfl, hlength, hkept⟩ := atFront_settled h
  have htext : text = c :: body :=
    (List.append_inj (hsplit.symm.trans (List.cons_append ..).symm) (by simpa using hlength)).1
  have hwhole := hkept [] fun d hd => by cases hd
  rw [List.append_nil] at hwhole
  exact ⟨c, body, htext, hwhole⟩

theorem numberAt_digits {digits : List Char} (h : ∀ c ∈ digits, c.isDigit = true) :
    NumberAt digits (.decimal digits none none) [] := by
  refine .decimal (fun radix letter hletter hannounced => ?_)
    ⟨(List.append_nil _).symm, h, by simp⟩ (.missing (by simp)) (.missing (by simp) (by simp))
  have hdigit : letter.isDigit = true := h letter (hannounced.subset (by simp))
  have hnone : letter.isDigit = false := by
    cases radix <;> obtain rfl | rfl := List.mem_pair.mp hletter <;> rfl
  rw [hnone] at hdigit
  cases hdigit

theorem spells_int (h : n < 2 ^ 64) : Spells (TokenValue.int n).text.toList (.int n) := by
  have htext : (TokenValue.int n).text.toList = Nat.toDigits 10 n := by
    rw [TokenValue.text, Nat.toString_eq_ofList_toDigits, String.toList_ofList]
  have hdigits := (Json.isDigits_toDigits n).digits
  have hnumber := numberAt_digits hdigits
  obtain ⟨d, ds, hsplit⟩ := List.exists_cons_of_ne_nil (Nat.toDigits_ne_nil (n := n) (b := 10))
  rw [htext]
  rw [hsplit] at hdigits hnumber ⊢
  have hvalue : Numeral.positional 10 (d :: ds) = n := hsplit ▸ Numeral.positional_toDigits n
  have hmeans : Means d ds (.int n) (NumberShape.decimal (d :: ds) none none).text.length := by
    refine .number (hdigits d List.mem_cons_self) hnumber ?_ ?_ (by simp)
    · rwa [NumberShape.Valid, if_pos ⟨rfl, rfl⟩, hvalue]
    · rw [NumberShape.Denotes, if_pos ⟨rfl, rfl⟩, hvalue]
  refine ⟨d, ds, rfl, hmeans.atFront.trans (congrArg (token _) ?_)⟩
  simp [NumberShape.text_decimal, NumberShape.fractionText, Exponent.optionText]

theorem lt_of_denotes {shape : NumberShape} (hvalid : shape.Valid)
    (hdenotes : shape.Denotes (.int n)) : n < 2 ^ 64 := by
  cases shape with
  | based radix letter digits =>
    rw [TokenValue.int.inj hdenotes]
    exact hvalid.2.2
  | decimal whole fraction exponent =>
    simp only [NumberShape.Valid, NumberShape.Denotes] at hvalid hdenotes
    split at hdenotes
    · rename_i hplain
      rw [if_pos hplain] at hvalid
      rw [TokenValue.int.inj hdenotes]
      exact hvalid
    · obtain ⟨x, -, hx⟩ := hdenotes
      cases hx

theorem spells_lineComment {span rest : List Char} (hcs : cs.head? = some '/')
    (hrun : LongestRun (· ≠ '\n') ('/' :: cs) span rest) :
    Spells (trimEnd span) (.comment (String.ofList (trimEnd span))) := by
  obtain ⟨cs, rfl⟩ := List.head?_eq_some_iff.mp hcs
  have hspan : span = '/' :: '/' :: cs.takeWhile (· ≠ '\n') := (longestRun_iff.mp hrun).1
  have hslash : isBlank '/' = false := by decide
  have htrim : trimEnd span = '/' :: '/' :: trimEnd (cs.takeWhile (· ≠ '\n')) := by
    rw [hspan, trimEnd_cons hslash, trimEnd_cons hslash]
  have hagain : LongestRun (· ≠ '\n') (trimEnd span) (trimEnd span) [] :=
    ⟨(List.append_nil _).symm, fun d hd => hrun.all d (mem_of_mem_trimEnd hd), by simp⟩
  refine ⟨'/', _, htrim, ?_⟩
  have hmeans : Means '/' ('/' :: trimEnd (cs.takeWhile (· ≠ '\n'))) _ _ :=
    .lineComment rfl rfl (htrim ▸ hagain)
  rw [← htrim, trimEnd_trimEnd] at hmeans
  exact hmeans.atFront

theorem spells_blockComment {body rest : List Char} (hcs : cs.head? = some '*')
    (hsplit : cs = body ++ '*' :: '/' :: rest) (hbody : Comment.Unclosed body) :
    Spells (Comment.onOneLine (Comment.block body))
      (.comment (String.ofList (Comment.onOneLine (Comment.block body)))) := by
  subst hsplit
  have hopen : (Comment.onOneLine body ++ ['*', '/']).head? = some '*' := by
    cases body with
    | nil => rfl
    | cons d body =>
      obtain rfl : d = '*' := Option.some.inj hcs
      rfl
  have hmeans := Means.blockComment rfl hopen rfl (Comment.onOneLine_unclosed hbody)
  rw [← Comment.onOneLine_block, Comment.onOneLine_onOneLine, Comment.onOneLine_block] at hmeans
  rw [Comment.onOneLine_block]
  exact ⟨'/', _, rfl, hmeans.atFront.trans (by simp [Comment.block])⟩

/-- The text of a token means the token, unless it is a floating-point number or a literal. -/
theorem Means.spells (h : Means c cs value n)
    (hkind : value.kind ∈ [.keyword, .ident, .int, .imag, .opSep, .comment]) :
    Spells value.text.toList value := by
  cases h with
  | @word run rest hc hrun =>
    have htext : (TokenValue.ofWord (String.ofList run)).text.toList = run := by
      rw [TokenValue.text_ofWord, String.toList_ofList]
    rw [htext]
    exact spells_of_front (Means.word hc hrun).atFront hrun.split
  | number hc hnumber hvalid hdenotes hi =>
    obtain ⟨n, rfl⟩ | ⟨x, rfl⟩ := hdenotes.int_or_float
    · exact spells_int (lt_of_denotes hvalid hdenotes)
    · simp [TokenValue.kind] at hkind
  | @imaginary shape rest hc hnumber hvalid hi =>
    obtain ⟨more, rfl⟩ := List.head?_eq_some_iff.mp hi
    have htext : (TokenValue.imag (String.ofList (shape.text ++ ['i']))).text.toList =
        shape.text ++ ['i'] := String.toList_ofList
    have hread := (Means.imaginary hc hnumber hvalid hi).atFront
    have hsplit : c :: cs = shape.text ++ ['i'] ++ more := by
      rw [(numberAt_iff.mp hnumber).2, List.append_assoc, List.singleton_append]
    rw [htext]
    exact spells_of_front (by simpa using hread) hsplit
  | @quoted body rest hc hsplit hpending =>
    have hnot : ∀ kind ∈ [TokenKind.keyword, .ident, .int, .imag, .opSep, .comment],
        firstClass kind ≠ .quote := by
      decide
    exact absurd (firstClass_quoted c body) (hnot _ hkind)
  | @lineComment span rest hc hcs hrun =>
    subst hc
    rw [TokenValue.text, String.toList_ofList]
    exact spells_lineComment hcs hrun
  | @blockComment body rest hc hcs hsplit hbody =>
    rw [TokenValue.text, String.toList_ofList]
    exact spells_blockComment hcs hsplit hbody
  | @operator p hline hblock hlongest =>
    obtain ⟨rest, hrest⟩ := hlongest.atFront
    have htext : (TokenValue.opSep p).text.toList = p.spelling := String.toList_ofList
    rw [htext]
    exact spells_of_front (Means.operator hline hblock hlongest).atFront hrest.symm

end Lexeme

end GoTokens
