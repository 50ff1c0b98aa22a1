import GoTokens.Proofs.Place
import GoTokens.Proofs.Scanner.Reading

/-!
Nothing of a source is lost: up to the error or the end, it is a gap, a lexeme, a gap and so
on, the lexemes being what the tokens span (`Scanner.drain_tiles`). Every place that is
reported is the one that its offset has in the source.
-/

namespace GoTokens

open Text

/-- The characters that a token spans. -/
def Token.lexeme (t : Token) (chars : List Char) : List Char :=
  (chars.take t.stop.offset).drop t.start.offset

theorem Token.lexeme_of_places {t : Token} {before lexeme : List Char} (rest : List Char)
    (hstart : t.start = Position.start.afterAll before)
    (hstop : t.stop = Position.start.afterAll (before ++ lexeme)) :
    t.lexeme (before ++ (lexeme ++ rest)) = lexeme := by
  rw [Token.lexeme, hstart, hstop, Position.start_afterAll_offset, Position.start_afterAll_offset,
    ← List.append_assoc, List.take_left, List.drop_left]

/-- How far a text is scanned: to its end, or to the error. -/
def stopOf (chars : List Char) (error : Option ScanError) : Nat :=
  error.elim chars.length (·.position.offset)

/-- From an offset on, tokens and the error after them account for a text. -/
structure Tiling (chars : List Char) (origin : Nat) (tokens : List Token)
    (error : Option ScanError) : Prop where
  reach : origin ≤ stopOf chars error
  nonempty : ∀ t ∈ tokens, t.start.offset < t.stop.offset
  ordered : tokens.Pairwise fun t u => t.stop.offset ≤ u.start.offset
  after : ∀ t ∈ tokens, origin ≤ t.start.offset
  before : ∀ t ∈ tokens, t.stop.offset ≤ stopOf chars error
  /-- What is not spanned is blank. -/
  covered : ∀ i c, origin ≤ i → i < stopOf chars error → chars[i]? = some c →
    (∀ t ∈ tokens, ¬ (t.start.offset ≤ i ∧ i < t.stop.offset)) → isBlank c = true
  /-- The text is a gap and a lexeme for each token, and a last gap. -/
  woven : ∃ (gaps : List (List Char)) (last : List Char),
    gaps.length = tokens.length ∧ (∀ gap ∈ gaps, Gap gap) ∧ Gap last ∧
      chars.take (stopOf chars error) = chars.take origin ++
        (gaps.zipWith (fun gap t => gap ++ t.lexeme chars) tokens).flatten ++ last
  /-- An error is inside the text, and not at a blank. -/
  failure : ∀ e, error = some e →
    e.position.offset < chars.length ∧ ∀ c, chars[e.position.offset]? = some c → isBlank c = false
  places : (∀ t ∈ tokens, t.start.IsIn chars ∧ t.stop.IsIn chars) ∧
    ∀ e, error = some e → e.position.IsIn chars

theorem Gap.isBlank_getElem? {before gap rest : List Char} (hgap : Gap gap) {i : Nat} {c : Char}
    (hle : before.length ≤ i) (hlt : i < before.length + gap.length)
    (hc : (before ++ (gap ++ rest))[i]? = some c) : isBlank c = true := by
  rw [List.getElem?_append_right hle, List.getElem?_append_left (by omega)] at hc
  exact hgap c (List.mem_of_getElem? hc)

namespace Tiling

variable {before gap lexeme rest : List Char} {tokens : List Token} {error : Option ScanError}

theorem blank (hgap : Gap gap) : Tiling (before ++ gap) before.length [] none where
  reach := by simp [stopOf]
  nonempty := by simp
  ordered := .nil
  after := by simp
  before := by simp
  covered := by
    intro i d hle hlt hd _
    have hd' : (before ++ (gap ++ []))[i]? = some d := by rwa [List.append_nil]
    exact hgap.isBlank_getElem? hle (by simpa [stopOf] using hlt) hd'
  woven := by
    refine ⟨[], gap, rfl, by simp, hgap, ?_⟩
    rw [stopOf, Option.elim_none, List.take_length, List.take_left]
    simp
  failure := by simp
  places := by simp

theorem fault {fault : Fault} {c : Char} (hgap : Gap gap) (hc : isBlank c = false) :
    Tiling (before ++ (gap ++ c :: rest)) before.length []
      (some ⟨fault, Position.start.afterAll (before ++ gap)⟩) where
  reach := by simp [stopOf]
  nonempty := by simp
  ordered := .nil
  after := by simp
  before := by simp
  covered := by
    intro i d hle hlt hd _
    rw [stopOf, Option.elim_some, Position.start_afterAll_offset, List.length_append] at hlt
    exact hgap.isBlank_getElem? hle hlt hd
  woven := by
    refine ⟨[], gap, rfl, by simp, hgap, ?_⟩
    rw [stopOf, Option.elim_some, Position.start_afterAll_offset, List.take_left,
      ← List.append_assoc, List.take_left]
    simp
  failure := by
    rintro e ⟨⟩
    simp only [Position.start_afterAll_offset]
    rw [← List.append_assoc]
    refine ⟨by simp, fun d hd => ?_⟩
    rw [List.getElem?_append_right (Nat.le_refl _), Nat.sub_self] at hd
    cases hd
    exact hc
  places := by
    refine ⟨by simp, ?_⟩
    rintro e ⟨⟩
    rw [← List.append_assoc]
    exact Position.isIn_start_afterAll _ _

/-- A gap and a lexeme before a text that is accounted for. -/
theorem token {t : Token} (hgap : Gap gap) (hne : lexeme ≠ [])
    (hstart : t.start = Position.start.afterAll (before ++ gap))
    (hstop : t.stop = Position.start.afterAll (before ++ (gap ++ lexeme)))
    (h : Tiling (before ++ (gap ++ (lexeme ++ rest))) (before ++ (gap ++ lexeme)).length
      tokens error) :
    Tiling (before ++ (gap ++ (lexeme ++ rest))) before.length (t :: tokens) error := by
  have hfirst : t.start.offset = before.length + gap.length := by
    rw [hstart, Position.start_afterAll_offset, List.length_append]
  have hlast : t.stop.offset = (before ++ (gap ++ lexeme)).length := by
    rw [hstop, Position.start_afterAll_offset]
  have hsum : (before ++ (gap ++ lexeme)).length = before.length + gap.length + lexeme.length := by
    simp only [List.length_append, Nat.add_assoc]
  have hpos : 0 < lexeme.length := List.length_pos_iff.mpr hne
  have hreach := h.reach
  have hafter := h.after
  have hsplit : before ++ (gap ++ (lexeme ++ rest)) = before ++ (gap ++ lexeme) ++ rest := by
    simp only [List.append_assoc]
  refine { reach := by omega, nonempty := ?nonempty, ordered := ?ordered, after := ?after,
           before := ?before, covered := ?covered, woven := ?woven, failure := h.failure,
           places := ⟨?places, h.places.2⟩ }
  case nonempty =>
    intro u hu
    rcases List.mem_cons.mp hu with rfl | hu
    · omega
    · exact h.nonempty u hu
  case ordered =>
    refine List.pairwise_cons.mpr ⟨?_, h.ordered⟩
    intro u hu
    rw [hlast]
    exact hafter u hu
  case after =>
    intro u hu
    rcases List.mem_cons.mp hu with rfl | hu
    · omega
    · have := hafter u hu
      omega
  case before =>
    intro u hu
    rcases List.mem_cons.mp hu with rfl | hu
    · omega
    · exact h.before u hu
  case covered =>
    intro i d hle hlt hd hout
    have ht := hout t List.mem_cons_self
    -- Before the token there is the gap; behind it what is left decides.
    by_cases hi : i < t.start.offset
    · exact hgap.isBlank_getElem? hle (by omega) hd
    · exact h.covered i d (by omega) hlt hd fun u hu => hout u (List.mem_cons_of_mem _ hu)
  case woven =>
    obtain ⟨gaps, last, hlen, hgaps, hend, hweave⟩ := h.woven
    have hlexeme : t.lexeme (before ++ (gap ++ (lexeme ++ rest))) = lexeme := by
      rw [← List.append_assoc] at hstop ⊢
      exact Token.lexeme_of_places rest hstart hstop
    refine ⟨gap :: gaps, last, by simp [hlen], by simpa using ⟨hgap, hgaps⟩, hend, ?_⟩
    rw [hweave, hsplit, List.take_left, ← hsplit, List.take_left, List.zipWith_cons_cons,
      List.flatten_cons, hlexeme]
    simp only [List.append_assoc]
  case places =>
    intro u hu
    rcases List.mem_cons.mp hu with rfl | hu
    · rw [hstart, hstop]
      constructor
      · rw [← List.append_assoc]
        exact Position.isIn_start_afterAll _ _
      · rw [hsplit]
        exact Position.isIn_start_afterAll _ _
    · exact h.places.1 u hu

end Tiling

theorem Reading.tiling {p : Position} {text : List Char} {tokens : List Token}
    {error : Option ScanError} (h : Reading p text tokens error) {before : List Char}
    (hp : p = Position.start.afterAll before) :
    Tiling (before ++ text) before.length tokens error := by
  induction h generalizing before with
  | blank hgap => exact .blank hgap
  | fault hgap hc _ =>
    rw [hp, ← Position.afterAll_append]
    exact .fault hgap hc
  | @token p gap body rest c value tokens error hgap hc _ _ ih =>
    have hstop : p.afterAll (gap ++ c :: body) =
        Position.start.afterAll (before ++ (gap ++ c :: body)) := by
      rw [hp, ← Position.afterAll_append]
    have hrest := ih hstop
    rw [← List.cons_append]
    refine .token hgap (List.cons_ne_nil c body) ?_ hstop ?_
    · rw [hp, ← Position.afterAll_append]
    · simpa only [List.append_assoc] using hrest

/-- What a token spans is the lexeme at its place. -/
theorem Reading.lexeme_eq {text : List Char} {tokens : List Token} {error : Option ScanError}
    (h : Reading .start text tokens error) {t : Token} (ht : t ∈ tokens) :
    ∃ c body rest, t.lexeme text = c :: body ∧
      Lexeme.atFront c (body ++ rest) = .token t.value (body.length + 1) := by
  obtain ⟨before, c, body, rest, rfl, -, hlex, hstart, hstop⟩ := h.lexeme_of_mem ht
  exact ⟨c, body, rest, Token.lexeme_of_places rest hstart hstop, hlex⟩

/-- **Nothing is lost.** The tokens of a source and the error after them, if there is one,
account for the source up to the error or the end, and report places that are in it. -/
theorem Scanner.drain_tiles (source : String) :
    ∃ tokens error, (Scanner.ofString source).drain.1 = itemsOf tokens error ∧
      Tiling source.toList 0 tokens error := by
  obtain ⟨tokens, error, hread⟩ := exists_reading .start source.toList
  have htiling : Tiling ([] ++ source.toList) 0 tokens error := hread.tiling rfl
  exact ⟨tokens, error, hread.drain, htiling⟩

end GoTokens
