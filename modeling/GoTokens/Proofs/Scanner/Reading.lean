import GoTokens.Proofs.Lexeme.Settled
import GoTokens.Proofs.Scanner.Run

/-!
What a scanner hands out, read off the text alone. `Reading` takes a text apart into gaps
and lexemes, as the tokens and the error say; there is one for every text, and a scanner
in front of the text runs through it (`Reading.run`). What holds of all readings holds of
what every source is scanned to.
-/

namespace GoTokens

open Text

/-- Characters between lexemes. -/
def Gap (cs : List Char) : Prop := ∀ d ∈ cs, isBlank d = true

theorem Gap.take {cs : List Char} (h : Gap cs) (n : Nat) : Gap (cs.take n) :=
  fun d hd => h d (List.mem_of_mem_take hd)

theorem Gap.drop {cs : List Char} (h : Gap cs) (n : Nat) : Gap (cs.drop n) :=
  fun d hd => h d (List.mem_of_mem_drop hd)

theorem Gap.append {as bs : List Char} (ha : Gap as) (hb : Gap bs) : Gap (as ++ bs) :=
  fun d hd => (List.mem_append.mp hd).elim (ha d) (hb d)

theorem Gap.head? {cs more : List Char} (h : Gap cs) (hne : cs ≠ []) {d : Char}
    (hd : (cs ++ more).head? = some d) : isBlank d = true ∧ cs.head? = some d := by
  cases cs with
  | nil => exact absurd rfl hne
  | cons c cs =>
    cases hd
    exact ⟨h d List.mem_cons_self, rfl⟩

/-- A token with other places. -/
def Token.mapPlaces (f : Position → Position) (t : Token) : Token :=
  ⟨t.value, f t.start, f t.stop⟩

def ScanError.mapPlace (f : Position → Position) (e : ScanError) : ScanError :=
  ⟨e.fault, f e.position⟩

/-- A text is read from a place on: a gap, and then the end, or a token and what comes after
it, or an error. -/
inductive Reading : Position → List Char → List Token → Option ScanError → Prop where
  | blank {p : Position} {gap : List Char} : Gap gap → Reading p gap [] none
  | token {p : Position} {gap body rest : List Char} {c : Char} {value : TokenValue}
      {tokens : List Token} {error : Option ScanError} :
      Gap gap → isBlank c = false →
      Lexeme.atFront c (body ++ rest) = .token value (body.length + 1) →
      Reading (p.afterAll (gap ++ c :: body)) rest tokens error →
      Reading p (gap ++ c :: (body ++ rest))
        (⟨value, p.afterAll gap, p.afterAll (gap ++ c :: body)⟩ :: tokens) error
  | fault {p : Position} {gap rest : List Char} {c : Char} {fault : Fault} {n : Nat} :
      Gap gap → isBlank c = false → Lexeme.atFront c rest = .fault fault n →
      Reading p (gap ++ c :: rest) [] (some ⟨fault, p.afterAll gap⟩)

/-- A text is a gap, or a gap and a character that is no blank. -/
theorem gap_cases (text : List Char) :
    Gap text ∨ ∃ gap c cs, text = gap ++ c :: cs ∧ Gap gap ∧ isBlank c = false := by
  have hgap : Gap (text.takeWhile isBlank) := fun d hd => List.mem_takeWhile_imp hd
  have htext : text.takeWhile isBlank ++ text.dropWhile isBlank = text :=
    List.takeWhile_append_dropWhile
  cases hrest : text.dropWhile isBlank with
  | nil =>
    rw [hrest, List.append_nil] at htext
    rw [htext] at hgap
    exact .inl hgap
  | cons c cs =>
    have hc : isBlank c = false := by
      have hne : text.dropWhile isBlank ≠ [] := by rw [hrest]; exact List.cons_ne_nil _ _
      have hhead := List.head_dropWhile_not isBlank hne
      simpa [hrest] using hhead
    rw [hrest] at htext
    exact .inr ⟨_, c, cs, htext.symm, hgap, hc⟩

theorem exists_reading (p : Position) (text : List Char) :
    ∃ tokens error, Reading p text tokens error := by
  rcases gap_cases text with hgap | ⟨gap, c, cs, htext, hgap, hc⟩
  · exact ⟨[], none, .blank hgap⟩
  · match hlex : Lexeme.atFront c cs with
    | .fault fault n =>
      refine ⟨[], some ⟨fault, p.afterAll gap⟩, ?_⟩
      rw [htext]
      exact .fault hgap hc hlex
    | .token value n =>
      obtain ⟨body, rest, rfl, rfl, -⟩ := Lexeme.atFront_settled hlex
      have hshort : rest.length < text.length := by
        simp only [htext, List.length_append, List.length_cons]
        omega
      obtain ⟨tokens, error, hread⟩ := exists_reading (p.afterAll (gap ++ c :: body)) rest
      refine ⟨⟨value, p.afterAll gap, p.afterAll (gap ++ c :: body)⟩ :: tokens, error, ?_⟩
      rw [htext]
      exact .token hgap hc hlex hread
termination_by text.length
decreasing_by exact hshort

namespace Scanner

/-- The cursor behind a gap. -/
theorem ahead_of_gap {s : Scanner} {gap rest : List Char} (h : s.cursor.rest = gap ++ rest)
    (hgap : Gap gap) (hrest : ∀ d, rest.head? = some d → isBlank d = false) :
    s.ahead.rest = rest ∧ s.ahead.position = s.cursor.position.afterAll gap := by
  have htake : s.cursor.rest.takeWhile isBlank = gap := by
    rw [h]
    exact Lookahead.takeWhile_append_eq.mpr ⟨hgap, hrest⟩
  rw [ahead, Cursor.eatWhile_eq_skip, htake, Cursor.skip_rest, Cursor.skip_position, h,
    List.drop_left, List.take_left]
  exact ⟨rfl, rfl⟩

end Scanner

namespace Reading

variable {p : Position} {text : List Char} {tokens : List Token} {error : Option ScanError}

theorem of_nil (h : Reading p [] tokens error) : tokens = [] ∧ error = none := by
  generalize htext : ([] : List Char) = text at h
  cases h with
  | blank _ => exact ⟨rfl, rfl⟩
  | token _ _ _ _ => simp at htext
  | fault _ _ _ => simp at htext

/-- A gap may stand before a text. -/
theorem behind_gap {before : List Char} (hbefore : Gap before)
    (h : Reading (p.afterAll before) text tokens error) :
    Reading p (before ++ text) tokens error := by
  cases h with
  | blank hgap => exact .blank (hbefore.append hgap)
  | @token _ gap body rest c value tokens error hgap hc hlex hrest =>
    simp only [← Position.afterAll_append, ← List.append_assoc] at hrest ⊢
    exact .token (hbefore.append hgap) hc hlex hrest
  | fault hgap hc hlex =>
    simp only [← Position.afterAll_append, ← List.append_assoc]
    exact .fault (hbefore.append hgap) hc hlex

/-- Where a text begins matters to the places of its items and to nothing else. -/
theorem relocated (h : Reading p text tokens error) {f : Position → Position} {q : Position}
    (hf : ∀ cs, f (p.afterAll cs) = q.afterAll cs) :
    Reading q text (tokens.map (·.mapPlaces f)) (error.map (·.mapPlace f)) := by
  induction h generalizing q with
  | blank hgap => exact .blank hgap
  | fault hgap hc hlex =>
    simp only [List.map_nil, Option.map_some, ScanError.mapPlace, hf]
    exact .fault hgap hc hlex
  | @token p gap body rest c value tokens error hgap hc hlex _ ih =>
    simp only [List.map_cons, Token.mapPlaces, hf]
    refine .token hgap hc hlex (ih fun cs => ?_)
    rw [← Position.afterAll_append, hf, Position.afterAll_append]

/-- Every token of a reading is the lexeme at its place, which is no blank. -/
theorem lexeme_of_mem (h : Reading p text tokens error) {t : Token} (ht : t ∈ tokens) :
    ∃ before c body rest, text = before ++ c :: (body ++ rest) ∧ isBlank c = false ∧
      Lexeme.atFront c (body ++ rest) = .token t.value (body.length + 1) ∧
      t.start = p.afterAll before ∧ t.stop = p.afterAll (before ++ c :: body) := by
  induction h with
  | blank _ => cases ht
  | fault _ _ _ => cases ht
  | @token p gap body rest c value tokens error hgap hc hlex _ ih =>
    rcases List.mem_cons.mp ht with rfl | ht
    · exact ⟨gap, c, body, rest, rfl, hc, hlex, rfl, rfl⟩
    · obtain ⟨before, d, body', rest', rfl, hd, hlex', hstart, hstop⟩ := ih ht
      refine ⟨gap ++ c :: (body ++ before), d, body', rest', by simp, hd, hlex', ?_, ?_⟩
      · rw [hstart, ← Position.afterAll_append]
        simp
      · rw [hstop, ← Position.afterAll_append]
        simp

theorem offset_le (h : Reading p text tokens error) {t : Token} (ht : t ∈ tokens) :
    p.offset ≤ t.start.offset ∧ t.start.offset < t.stop.offset := by
  obtain ⟨before, c, body, rest, -, -, -, hstart, hstop⟩ := h.lexeme_of_mem ht
  rw [hstart, hstop, Position.afterAll_offset, Position.afterAll_offset, List.length_append,
    List.length_cons]
  omega

/-- A scanner in front of a text runs through its reading. -/
theorem run (h : Reading p text tokens error) {s : Scanner} (hf : s.failed = false)
    (hp : s.cursor.position = p) (htext : s.cursor.rest = text) :
    ∃ last, Scanner.Run s tokens error last := by
  induction h generalizing s with
  | @blank p gap hgap =>
    obtain ⟨hrest, -⟩ := Scanner.ahead_of_gap (htext.trans (List.append_nil gap).symm) hgap
      (fun d hd => by cases hd)
    exact ⟨_, .ended (Scanner.next_of_nil hf hrest)⟩
  | @token p gap body rest c value tokens error hgap hc hlex _ ih =>
    obtain ⟨hrest, hplace⟩ := Scanner.ahead_of_gap htext hgap (fun d hd => by cases hd; exact hc)
    have hstop : (s.ahead.skip (body.length + 1)).position = p.afterAll (gap ++ c :: body) := by
      rw [Cursor.skip_position, hrest, hplace, hp, List.take_succ_cons, List.take_left,
        Position.afterAll_append]
    have hleft : (s.ahead.skip (body.length + 1)).rest = rest := by
      rw [Cursor.skip_rest, hrest, List.drop_succ_cons, List.drop_left]
    have hnext := Scanner.next_of_token hf hrest hlex
    rw [hstop, hplace, hp] at hnext
    obtain ⟨last, hrun⟩ := ih (s := s.next.2) (by rw [hnext]; exact hf) (by rw [hnext]; exact hstop)
      (by rw [hnext]; exact hleft)
    rw [hnext] at hrun
    exact ⟨last, .token hnext hrun⟩
  | @fault p gap rest c fault n hgap hc hlex =>
    obtain ⟨hrest, hplace⟩ := Scanner.ahead_of_gap htext hgap (fun d hd => by cases hd; exact hc)
    have hnext := Scanner.next_of_fault hf hrest hlex
    rw [hplace, hp] at hnext
    exact ⟨_, .failed hnext⟩

theorem unique {tokens' : List Token} {error' : Option ScanError}
    (h : Reading p text tokens error) (h' : Reading p text tokens' error') :
    tokens = tokens' ∧ error = error' := by
  obtain ⟨last, hrun⟩ := h.run (s := .ofCursor ⟨[], text, 0, p⟩) rfl rfl rfl
  obtain ⟨last', hrun'⟩ := h'.run (s := .ofCursor ⟨[], text, 0, p⟩) rfl rfl rfl
  have hdrain := hrun.drain.symm.trans hrun'.drain
  exact itemsOf_inj (congrArg Prod.fst hdrain)

theorem drain {source : String} (h : Reading .start source.toList tokens error) :
    (Scanner.ofString source).drain.1 = itemsOf tokens error := by
  obtain ⟨last, hrun⟩ := h.run (s := Scanner.ofString source) rfl rfl rfl
  rw [hrun.drain]

theorem scan {source : String} (h : Reading .start source.toList tokens error) :
    GoTokens.scan source = resultOf tokens error := by
  obtain ⟨last, hrun⟩ := h.run (s := Scanner.ofString source) rfl rfl rfl
  exact hrun.scan

theorem of_scan {source : String} (h : GoTokens.scan source = .ok tokens) :
    Reading .start source.toList tokens none := by
  obtain ⟨tokens', error', hread⟩ := exists_reading .start source.toList
  rw [hread.scan] at h
  cases error' <;> cases h
  exact hread

theorem of_scan_error {source : String} {e : ScanError}
    (h : GoTokens.scan source = .error e) :
    ∃ tokens, Reading .start source.toList tokens (some e) := by
  obtain ⟨tokens', error', hread⟩ := exists_reading .start source.toList
  rw [hread.scan] at h
  cases error' <;> cases h
  exact ⟨tokens', hread⟩

theorem of_drain {source : String} (h : (Scanner.ofString source).drain.1 = itemsOf tokens error) :
    Reading .start source.toList tokens error := by
  obtain ⟨tokens', error', hread⟩ := exists_reading .start source.toList
  rw [hread.drain] at h
  obtain ⟨rfl, rfl⟩ := itemsOf_inj h
  exact hread

end Reading

end GoTokens
