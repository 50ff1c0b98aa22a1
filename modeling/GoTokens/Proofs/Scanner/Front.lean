import GoTokens.Proofs.Place
import GoTokens.Proofs.Scanner.Reading

/-!
The front of a source decides its tokens. Up to a token and one character after it, or the
end of the text in the place of that character, the text determines the token and those
before it (`Scanner.drain_front`). The token ends there because it must: with more of the text
it would be no token.
-/

namespace GoTokens

open Lookahead Text

/-- A text that agrees with another up to some point behind its front has that front. -/
theorem exists_append_of_take_eq {front rest text : List Char} {n : Nat}
    (h : text.take (front.length + n) = (front ++ rest).take (front.length + n)) :
    ∃ rest', text = front ++ rest' ∧ rest'.take n = rest.take n := by
  rw [List.take_length_add_append] at h
  have hfront : text.take front.length = front := by
    have htake := congrArg (List.take front.length) h
    rwa [List.take_take, Nat.min_eq_left (Nat.le_add_right _ _), List.take_left] at htake
  have htext : front ++ text.drop front.length = text := by
    conv => rhs; rw [← List.take_append_drop front.length text, hfront]
  rw [← htext, List.take_length_add_append] at h
  exact ⟨_, htext.symm, List.append_cancel_left h⟩

namespace Reading

variable {p : Position} {text : List Char} {tokens : List Token} {error : Option ScanError}

/-- A text that agrees with a text that is read, up to one character behind a token, has the
same tokens up to that one. -/
theorem front (h : Reading p text tokens error) {k n : Nat} {t : Token}
    (ht : tokens[k]? = some t) (hstop : t.stop.offset = p.offset + n) {other : List Char}
    (hother : other.take (n + 1) = text.take (n + 1)) :
    ∃ tokens' error', Reading p other tokens' error' ∧
      tokens'.take (k + 1) = tokens.take (k + 1) := by
  induction h generalizing k n other with
  | blank _ => cases ht
  | fault _ _ _ => cases ht
  | @token p gap body rest c value tokens error hgap hc hlex hrest ih =>
    have htext : gap ++ c :: (body ++ rest) = gap ++ c :: body ++ rest := by simp
    have hend : (p.afterAll (gap ++ c :: body)).offset =
        p.offset + (gap ++ c :: body).length := Position.afterAll_offset _ _
    obtain ⟨m, hn⟩ : ∃ m, n = (gap ++ c :: body).length + m := by
      refine Nat.exists_eq_add_of_le ?_
      cases k with
      | zero =>
        cases ht
        exact (Nat.add_left_cancel (hend.symm.trans hstop)).le
      | succ k =>
        have hle := hrest.offset_le (List.mem_of_getElem? ht)
        omega
    rw [htext, hn, Nat.add_assoc] at hother
    obtain ⟨rest', rfl, hrest'⟩ := exists_append_of_take_eq hother
    have hlex' := Lexeme.atFront_kept hlex (.of_take hrest')
    rw [List.append_assoc, List.cons_append]
    cases k with
    | zero =>
      obtain ⟨tokens', error', hread⟩ := exists_reading (p.afterAll (gap ++ c :: body)) rest'
      exact ⟨_, error', .token hgap hc hlex' hread, by simp⟩
    | succ k =>
      obtain ⟨tokens', error', hread, htake⟩ := ih ht (by omega) hrest'
      exact ⟨_, error', .token hgap hc hlex' hread, by rw [List.take_succ_cons, htake,
        List.take_succ_cons]⟩

/-- What begins as a token and goes on as the text does, has that token at its front. -/
theorem longer {t : Token} (h : Reading p text tokens error) (ht : t ∈ tokens) {n : Nat}
    (hn : t.stop.offset ≤ p.offset + n) :
    ∃ tokens' error' u, Reading .start ((text.take n).drop (t.start.offset - p.offset))
      (u :: tokens') error' ∧ u.stop.offset = t.stop.offset - t.start.offset := by
  obtain ⟨before, c, body, rest, rfl, hc, hlex, hstart, hstop⟩ := h.lexeme_of_mem ht
  have htext : before ++ c :: (body ++ rest) = before ++ c :: body ++ rest := by simp
  rw [hstop, Position.afterAll_offset, Nat.add_le_add_iff_left] at hn
  obtain ⟨m, rfl⟩ := Nat.exists_eq_add_of_le hn
  have hlex' := Lexeme.atFront_kept hlex (.take rest m)
  have hgap : Gap [] := fun d hd => by cases hd
  obtain ⟨tokens', error', hread⟩ := exists_reading (Position.start.afterAll ([] ++ c :: body))
    (rest.take m)
  have hfirst := Reading.token hgap hc hlex' hread
  refine ⟨tokens', error', ⟨t.value, .start, Position.start.afterAll (c :: body)⟩, ?_, ?_⟩
  · rw [htext, List.take_length_add_append, hstart, Position.afterAll_offset,
      Nat.add_sub_cancel_left, List.append_assoc, List.drop_left, List.cons_append]
    exact hfirst
  · rw [hstart, hstop]
    simp only [Position.afterAll_offset, List.length_append, List.length_cons,
      Position.start_offset]
    omega

end Reading

/-- **One character behind a token decides it.** If a source has a token as one of its items, a
source that agrees with it up to one character behind this token has the same items up to this
one. None of the texts that begin where the token does, and go on behind its end, is a single
token. -/
theorem Scanner.drain_front {source : String} {k : Nat} {t : Token}
    (h : (ofString source).drain.1[k]? = some (.ok t)) :
    (∀ other : String,
      other.toList.take (t.stop.offset + 1) = source.toList.take (t.stop.offset + 1) →
      (ofString other).drain.1.take (k + 1) = (ofString source).drain.1.take (k + 1)) ∧
    ∀ stop, t.stop.offset < stop → stop ≤ source.length →
      let longer := (source.toList.take stop).drop t.start.offset
      ¬ ∃ u, GoTokens.scan (String.ofList longer) = .ok [u] ∧
        u.start.offset = 0 ∧ u.stop.offset = longer.length := by
  obtain ⟨tokens, error, hread⟩ := exists_reading .start source.toList
  rw [hread.drain] at h ⊢
  have ht := itemsOf_getElem?_ok h
  refine ⟨fun other hother => ?_, fun stop hstop hle => ?_⟩
  · have hzero : t.stop.offset = Position.start.offset + t.stop.offset := (Nat.zero_add _).symm
    obtain ⟨tokens', error', hread', htake⟩ := hread.front ht hzero hother
    have hlength : k + 1 ≤ tokens.length := (List.getElem?_eq_some_iff.mp ht).1
    have hlength' : k + 1 ≤ tokens'.length := by
      have hlen := congrArg List.length htake
      rw [List.length_take, List.length_take] at hlen
      omega
    rw [hread'.drain, itemsOf_take hlength', itemsOf_take hlength, htake]
  · rintro longer ⟨u, hu, -, hend⟩
    have hmem := List.mem_of_getElem? ht
    have hreach : t.stop.offset ≤ Position.start.offset + stop := by
      rw [Position.start_offset]
      omega
    obtain ⟨tokens', error', first, hlonger, hfirst⟩ := hread.longer hmem hreach
    have hscan := Reading.of_scan hu
    rw [String.toList_ofList] at hscan
    obtain ⟨rfl, -⟩ := List.cons.inj (hlonger.unique hscan).1
    rw [List.length_drop, List.length_take_of_le hle] at hend
    have hlt := (hread.offset_le hmem).2
    omega

theorem Scanner.drain_front_shift :
    (ofString "a <<=b").drain.1[1]? = some (.ok ⟨.opSep .shlAssign, ⟨2, 1, 3⟩, ⟨5, 1, 6⟩⟩) ∧
    (ofString "a <<=b\"").drain.1.take 2 = (ofString "a <<=b").drain.1.take 2 ∧
    let longer := ("a <<=b".toList.take 6).drop 2
    ¬ ∃ u, GoTokens.scan (String.ofList longer) = .ok [u] ∧
      u.start.offset = 0 ∧ u.stop.offset = longer.length := by
  have hitem : (ofString "a <<=b").drain.1[1]? =
      some (.ok ⟨.opSep .shlAssign, ⟨2, 1, 3⟩, ⟨5, 1, 6⟩⟩) := by decide +kernel
  obtain ⟨hfront, hlonger⟩ := drain_front hitem
  exact ⟨hitem, hfront "a <<=b\"" (by decide), hlonger 6 (by decide) (by decide)⟩

end GoTokens
