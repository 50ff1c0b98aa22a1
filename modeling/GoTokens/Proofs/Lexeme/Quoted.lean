import GoTokens.CharClass
import GoTokens.Lexeme.Quoted
import Mathlib.Data.List.DropRight
import Mathlib.Data.List.Induction

/-!
Literals between their marks. `pending?` follows the escapes of a body up to its end; the
closing mark is the first that is not escaped (`bodyLength?_split`), and whether it is can be
told from the number of backslashes before it (`pending?_iff_odd`). The stored text of a
literal is a literal with the same stored text, as long as the blanks that are trimmed off
do not take the place of the closing mark behind a backslash.
-/

namespace GoTokens

open Text

theorem isQuote_cases {mark : Char} (h : isQuote mark = true) :
    mark = '"' ∨ mark = '`' ∨ mark = '\'' := by
  simpa [isQuote, or_assoc] using h

theorem CharClass.isQuote_of_class {c : Char} (h : CharClass.of c = .quote) :
    isQuote c = true := by
  revert h
  simp only [CharClass.of]
  repeat' split
  all_goals simp_all

namespace Quoted

/-- Whether the character after a text is escaped, unless the mark closes the literal within
the text. -/
def pending? (mark : Char) : Bool → List Char → Option Bool
  | escaped, [] => some escaped
  | true, _ :: cs => pending? mark false cs
  | false, c :: cs => if c = mark then none else pending? mark (c == '\\') cs

theorem pending?_append (mark : Char) (escaped : Bool) (as bs : List Char) :
    pending? mark escaped (as ++ bs) =
      (pending? mark escaped as).bind fun escaped => pending? mark escaped bs := by
  induction as generalizing escaped with
  | nil => rfl
  | cons c as ih =>
    cases escaped with
    | true => exact ih false
    | false =>
      by_cases hc : c = mark
      · simp [pending?, hc]
      · simp only [List.cons_append, pending?, if_neg hc, ih]

theorem pending?_of_append {mark : Char} {escaped : Bool} {as bs : List Char}
    (h : (pending? mark escaped (as ++ bs)).isSome) :
    ∃ escaped', pending? mark escaped as = some escaped' := by
  rw [pending?_append] at h
  cases hp : pending? mark escaped as with
  | none => rw [hp] at h; cases h
  | some escaped' => exact ⟨escaped', rfl⟩

theorem bodyLength?_append {mark : Char} {escaped escaped' : Bool} {body : List Char}
    (h : pending? mark escaped body = some escaped') (seen : Nat) (rest : List Char) :
    bodyLength? mark escaped seen (body ++ rest) =
      bodyLength? mark escaped' (seen + body.length) rest := by
  induction body generalizing escaped seen with
  | nil => cases h; rfl
  | cons c body ih =>
    have hlen : seen + (c :: body).length = seen + 1 + body.length := by
      rw [List.length_cons]; omega
    cases escaped with
    | true =>
      simp only [pending?] at h
      rw [List.cons_append, bodyLength?, if_pos rfl, ih h, hlen]
    | false =>
      simp only [pending?] at h
      split at h
      · cases h
      · rename_i hc
        rw [List.cons_append, bodyLength?, if_neg Bool.false_ne_true, if_neg hc, ih h, hlen]

/-- The closing mark is found behind a body that leaves nothing escaped. -/
theorem bodyLength?_split {mark : Char} {escaped : Bool} {seen n : Nat} {cs : List Char}
    (h : bodyLength? mark escaped seen cs = some n) :
    ∃ body rest, cs = body ++ mark :: rest ∧ n = seen + body.length ∧
      pending? mark escaped body = some false := by
  induction cs generalizing escaped seen with
  | nil => simp [bodyLength?] at h
  | cons c cs ih =>
    by_cases hclose : escaped = false ∧ c = mark
    · obtain ⟨rfl, rfl⟩ := hclose
      simp only [bodyLength?, Bool.false_eq_true, if_false, if_true, Option.some.injEq] at h
      exact ⟨[], cs, rfl, h.symm, rfl⟩
    · have hstep : bodyLength? mark escaped seen (c :: cs) =
          bodyLength? mark (!escaped && c == '\\') (seen + 1) cs := by
        cases escaped <;> simp_all [bodyLength?]
      rw [hstep] at h
      obtain ⟨body, rest, rfl, hn, hpending⟩ := ih h
      refine ⟨c :: body, rest, rfl, by simp only [List.length_cons]; omega, ?_⟩
      cases escaped <;> simp_all [pending?]

/-- A character is escaped if the number of backslashes right before it is odd. -/
theorem pending?_iff_odd {mark : Char} {escaped : Bool} {body : List Char}
    (h : pending? mark false body = some escaped) :
    escaped = true ↔ (body.rtakeWhile (· == '\\')).length % 2 = 1 := by
  induction body using List.reverseRecOn generalizing escaped with
  | nil => cases h; simp
  | append_singleton body c ih =>
    obtain ⟨before, hbefore⟩ := pending?_of_append (Option.isSome_of_eq_some h)
    rw [pending?_append, hbefore] at h
    have hstep : escaped = (!before && c == '\\') := by
      cases before with
      | true => exact (Option.some.inj h).symm
      | false =>
        simp only [Option.bind_some, pending?] at h
        split at h
        · cases h
        · exact (Option.some.inj h).symm
    have hcount := ih hbefore
    rw [List.rtakeWhile_concat, hstep]
    by_cases hc : c = '\\'
    · subst hc
      rw [beq_self_eq_true, if_pos rfl, List.length_append, List.length_singleton]
      cases before <;> simp at hcount ⊢ <;> omega
    · simp [hc]

/-! ## Stored texts -/

theorem text_value (mark : Char) (body : List Char) :
    (value mark body).text = String.ofList (storedText mark body) := by
  unfold value
  split <;> rfl

theorem onOneLine_append (as bs : List Char) :
    onOneLine (as ++ bs) = onOneLine as ++ onOneLine bs := List.flatMap_append

theorem onOneLine_of_notMem {cs : List Char} (h : '\n' ∉ cs) : onOneLine cs = cs := by
  induction cs with
  | nil => rfl
  | cons c cs ih =>
    obtain ⟨hc, hcs⟩ := not_or.mp (mt List.mem_cons.mpr h)
    rw [onOneLine, List.flatMap_cons, if_neg (Ne.symm hc)]
    exact congrArg (c :: ·) (ih hcs)

theorem notMem_onOneLine (cs : List Char) : '\n' ∉ onOneLine cs := by
  intro h
  obtain ⟨c, -, hc⟩ := List.mem_flatMap.mp h
  split at hc
  · simp at hc
  · rename_i hne
    exact hne (List.mem_singleton.mp hc).symm

/-- A line end is spelled with a backslash and one more character, so escapes stay. -/
theorem pending?_onOneLine {mark : Char} (hmark : isQuote mark = true) (escaped : Bool)
    (cs : List Char) : pending? mark escaped (onOneLine cs) = pending? mark escaped cs := by
  have hne : '\\' ≠ mark ∧ 'n' ≠ mark ∧ '\n' ≠ mark := by
    rcases isQuote_cases hmark with rfl | rfl | rfl <;> decide
  induction cs generalizing escaped with
  | nil => rfl
  | cons c cs ih =>
    rw [onOneLine, List.flatMap_cons]
    by_cases hc : c = '\n'
    · subst hc
      cases escaped <;> simp [pending?, hne] <;> exact ih false
    · rw [if_neg hc]
      cases escaped with
      | true => exact ih false
      | false =>
        simp only [List.cons_append, List.nil_append, pending?]
        split
        · rfl
        · exact ih _

/-- A body without the blanks that are trimmed off its end. Line ends are no longer blanks
then, since they are spelled out before. -/
def kept (body : List Char) : List Char := body.rdropWhile fun c => isBlank c && c != '\n'

/-- Nothing closes a literal within what is kept of its body. -/
theorem pending?_kept {mark : Char} {body : List Char}
    (h : pending? mark false body = some false) :
    ∃ escaped, pending? mark false (kept body) = some escaped := by
  have hsplit : kept body ++ body.rtakeWhile (fun c => isBlank c && c != '\n') = body :=
    List.rdropWhile_append_rtakeWhile
  rw [← hsplit] at h
  exact pending?_of_append (Option.isSome_of_eq_some h)

/-- The first of the blanks that are trimmed off a body is escaped. -/
def TrimsEscaped (body : List Char) : Prop :=
  ((kept body).rtakeWhile (· == '\\')).length % 2 = 1

instance (body : List Char) : Decidable (TrimsEscaped body) :=
  inferInstanceAs (Decidable (_ = _))

theorem trimEnd_kept {mark : Char} (hmark : isBlank mark = false) (body : List Char) :
    trimEnd (mark :: onOneLine (kept body)) = mark :: onOneLine (kept body) := by
  induction body using List.reverseRecOn with
  | nil => exact trimEnd_append_singleton [] hmark
  | append_singleton body c ih =>
    rw [kept, List.rdropWhile_concat]
    split
    · exact ih
    · rename_i hc
      rw [onOneLine_append]
      by_cases hline : c = '\n'
      · subst hline
        have hspelled : trimEnd (mark :: (onOneLine body ++ ['\\']) ++ ['n']) = _ :=
          trimEnd_append_singleton _ (by decide)
        simpa [onOneLine] using hspelled
      · have hblank : isBlank c = false := by simpa [hline] using hc
        have hone : onOneLine [c] = [c] := onOneLine_of_notMem (by simpa using Ne.symm hline)
        rw [hone]
        exact trimEnd_append_singleton (mark :: onOneLine body) hblank

/-- The stored text is what is kept of the body, on one line, between two marks. -/
theorem storedText_eq {mark : Char} (hmark : isBlank mark = false) (body : List Char) :
    storedText mark body = mark :: onOneLine (kept body) ++ [mark] := by
  let trimmed := body.rtakeWhile fun c => isBlank c && c != '\n'
  have hsplit : body = kept body ++ trimmed := List.rdropWhile_append_rtakeWhile.symm
  have htrimmed : ∀ c ∈ trimmed, isBlank c = true ∧ c ≠ '\n' := by
    intro c hc
    simpa using List.mem_rtakeWhile_imp hc
  have hline : mark ≠ '\n' := by
    rintro rfl
    cases hmark
  have hmarked : onOneLine (mark :: body) = mark :: onOneLine (kept body) ++ trimmed := by
    have hone : onOneLine trimmed = trimmed :=
      onOneLine_of_notMem fun hmem => (htrimmed _ hmem).2 rfl
    rw [onOneLine, List.flatMap_cons, if_neg hline]
    change [mark] ++ onOneLine body = _
    rw [hsplit, onOneLine_append, ← hsplit, hone]
    rfl
  rw [storedText, hmarked, trimEnd_append_blanks _ fun c hc => (htrimmed c hc).1,
    trimEnd_kept hmark]

theorem storedText_kept {mark : Char} (hmark : isBlank mark = false) (body : List Char) :
    storedText mark (onOneLine (kept body)) = storedText mark body := by
  have hmem : '\n' ∉ mark :: onOneLine (kept body) := by
    rw [List.mem_cons, not_or]
    refine ⟨?_, notMem_onOneLine _⟩
    rintro rfl
    cases hmark
  rw [storedText_eq hmark body, storedText, onOneLine_of_notMem hmem, trimEnd_kept hmark]

end Quoted

end GoTokens
