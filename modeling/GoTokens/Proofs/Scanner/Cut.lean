import GoTokens.Proofs.Scanner.Tiling

/-!
A source may be cut in any gap: what is before the cut is scanned to the tokens before it,
and what is after it to the items after it, at places that are counted from the cut
(`scan_cut`). So there is nothing that a scanner keeps from one token to the next, and the
end of the text does not change a token that is complete.
-/

namespace GoTokens

open Text

/-- A token as it is in a text that begins at `origin`. -/
def Token.since (t : Token) (origin : Position) : Token :=
  ⟨t.value, t.start.since origin, t.stop.since origin⟩

def ScanError.since (e : ScanError) (origin : Position) : ScanError :=
  ⟨e.fault, e.position.since origin⟩

def endOf (tokens : List Token) : Nat := (tokens.getLast?.map (·.stop.offset)).getD 0

def nextPlace? : List Token → Option ScanError → Option Position
  | [], error => error.map (·.position)
  | t :: _, _ => some t.start

/-- Where the next item is, or the text ends. -/
def nextOf (chars : List Char) (tokens : List Token) (error : Option ScanError) : Nat :=
  ((nextPlace? tokens error).map (·.offset)).getD chars.length

theorem Tiling.stop_le_endOf {chars : List Char} {origin : Nat} {tokens : List Token}
    {error : Option ScanError} (h : Tiling chars origin tokens error) (k : Nat) :
    ∀ t ∈ tokens.take k, t.stop.offset ≤ endOf (tokens.take k) := by
  have hordered := h.ordered.sublist (List.take_sublist k tokens)
  intro t ht
  rcases List.eq_nil_or_concat (tokens.take k) with hnil | ⟨before, last, hlast⟩
  · rw [hnil] at ht
    cases ht
  · rw [hlast] at ht hordered ⊢
    have hend : endOf (before.concat last) = last.stop.offset := by simp [endOf]
    rw [hend]
    rw [List.concat_eq_append] at ht hordered
    rcases List.mem_append.mp ht with ht | ht
    · have hbefore := (List.pairwise_append.mp hordered).2.2 t ht last List.mem_cons_self
      have hmem : last ∈ tokens := List.mem_of_mem_take (i := k) (by rw [hlast]; simp)
      exact hbefore.trans (h.nonempty last hmem).le
    · rw [List.mem_singleton.mp ht]

namespace Reading

variable {p : Position} {text : List Char} {tokens : List Token} {error : Option ScanError}

/-- Read from another beginning, a text has the same items, at places counted from there. -/
theorem since {origin : Position} {before : List Char}
    (h : Reading (origin.afterAll before) text tokens error) :
    Reading (Position.start.afterAll before) text (tokens.map (·.since origin))
      (error.map (·.since origin)) :=
  h.relocated (f := (·.since origin)) fun cs => Position.afterAll_afterAll_since origin before cs

/-- A reading may be cut at a number of characters that is behind some of its tokens and not
behind the next item. -/
theorem cut (h : Reading p text tokens error) (k n : Nat)
    (hbefore : ∀ t ∈ tokens.take k, t.stop.offset ≤ p.offset + n)
    (hafter : ∀ q ∈ nextPlace? (tokens.drop k) error, p.offset + n ≤ q.offset) :
    Reading p (text.take n) (tokens.take k) none ∧
      Reading (p.afterAll (text.take n)) (text.drop n) (tokens.drop k) error := by
  induction h generalizing k n with
  | @blank p gap hgap =>
    rw [List.take_nil, List.drop_nil]
    exact ⟨.blank (hgap.take n), .blank (hgap.drop n)⟩
  | @fault p gap rest c fault m hgap hc hlex =>
    rw [List.drop_nil] at hafter
    have hn : n ≤ gap.length := by simpa using hafter _ rfl
    rw [List.take_append_of_le_length hn, List.drop_append_of_le_length hn, List.take_nil,
      List.drop_nil, ← p.afterAll_take_drop gap n]
    exact ⟨.blank (hgap.take n), .fault (hgap.drop n) hc hlex⟩
  | @token p gap body rest c value tokens error hgap hc hlex hrest ih =>
    cases k with
    | zero =>
      have hn : n ≤ gap.length := by simpa using hafter _ rfl
      rw [List.take_append_of_le_length hn, List.drop_append_of_le_length hn, List.take_zero,
        List.drop_zero, ← p.afterAll_take_drop gap n]
      refine ⟨.blank (hgap.take n), ?_⟩
      have hstop : p.afterAll (gap ++ c :: body) =
          (p.afterAll (gap.take n)).afterAll (gap.drop n ++ c :: body) := by
        rw [Position.afterAll_append, ← p.afterAll_take_drop gap n, ← Position.afterAll_append]
      rw [hstop] at hrest ⊢
      exact .token (hgap.drop n) hc hlex hrest
    | succ k =>
      have hn : (gap ++ c :: body).length ≤ n := by
        simpa using hbefore _ List.mem_cons_self
      obtain ⟨m, rfl⟩ := Nat.exists_eq_add_of_le hn
      have htext : gap ++ c :: (body ++ rest) = (gap ++ c :: body) ++ rest := by simp
      have hplace : p.afterAll (gap ++ c :: body ++ rest.take m) =
          (p.afterAll (gap ++ c :: body)).afterAll (rest.take m) := p.afterAll_append _ _
      have hoffset : (p.afterAll (gap ++ c :: body)).offset + m =
          p.offset + ((gap ++ c :: body).length + m) := by
        rw [Position.afterAll_offset, Nat.add_assoc]
      obtain ⟨hfront, hback⟩ := ih k m
        (fun t ht => hoffset ▸ hbefore t (List.mem_cons_of_mem _ ht))
        (fun q hq => hoffset ▸ hafter q hq)
      rw [htext, List.take_length_add_append, List.drop_length_add_append, hplace]
      refine ⟨?_, hback⟩
      rw [List.append_assoc, List.cons_append]
      exact .token hgap hc (Lexeme.atFront_kept hlex (.take rest m)) hfront

end Reading

theorem Tiling.nextOf_le {chars : List Char} {origin : Nat} {tokens : List Token}
    {error : Option ScanError} (h : Tiling chars origin tokens error) (k : Nat) :
    nextOf chars (tokens.drop k) error ≤ chars.length := by
  rw [nextOf]
  cases hrest : tokens.drop k with
  | nil =>
    cases error with
    | none => exact Nat.le_refl _
    | some e => exact (h.places.2 e rfl).offset_le
  | cons t rest =>
    have hmem : t ∈ tokens := List.mem_of_mem_drop (i := k) (by rw [hrest]; simp)
    exact (h.places.1 t hmem).1.offset_le

/-- **A source may be cut in any gap.** Cut behind `k` of its tokens and not behind the next
item, its first part is scanned to these tokens, and its second part to the items after them,
at places counted from the cut. -/
theorem scan_cut {source : String} {tokens : List Token} {error : Option ScanError}
    (h : (Scanner.ofString source).drain.1 = itemsOf tokens error) (k c : Nat)
    (hend : endOf (tokens.take k) ≤ c)
    (hnext : c ≤ nextOf source.toList (tokens.drop k) error) :
    let origin := Position.inText source.toList c
    scan (String.ofList (source.toList.take c)) = .ok (tokens.take k) ∧
      (Scanner.ofString (String.ofList (source.toList.drop c))).drain.1 =
        itemsOf ((tokens.drop k).map (·.since origin)) (error.map (·.since origin)) := by
  intro origin
  have hread := Reading.of_drain h
  have htiling : Tiling ([] ++ source.toList) 0 tokens error := hread.tiling rfl
  rw [List.nil_append] at htiling
  have horigin : Position.start.afterAll (source.toList.take c) = origin := by
    have hlength : (source.toList.take c).length = c :=
      List.length_take_of_le (hnext.trans (htiling.nextOf_le k))
    rw [Position.start_afterAll _ (source.toList.drop c), List.take_append_drop, hlength]
  have hbefore : ∀ t ∈ tokens.take k, t.stop.offset ≤ Position.start.offset + c := by
    intro t ht
    rw [Position.start_offset, Nat.zero_add]
    exact (htiling.stop_le_endOf k t ht).trans hend
  have hafter : ∀ q ∈ nextPlace? (tokens.drop k) error, Position.start.offset + c ≤ q.offset := by
    intro q hq
    rw [Position.start_offset, Nat.zero_add]
    rwa [nextOf, Option.mem_def.mp hq] at hnext
  obtain ⟨hfront, hback⟩ := hread.cut k c hbefore hafter
  rw [← String.toList_ofList (l := source.toList.take c)] at hfront
  rw [horigin, ← String.toList_ofList (l := source.toList.drop c)] at hback
  have hshift : Reading (origin.afterAll []) (String.ofList (source.toList.drop c)).toList
      (tokens.drop k) error := hback
  exact ⟨hfront.scan, hshift.since.drain⟩

theorem scan_cut_behind_line_end :
    scan (String.ofList ("a\n 1 $".toList.take 2)) = .ok [⟨.ident "a", ⟨0, 1, 1⟩, ⟨1, 1, 2⟩⟩] ∧
      (Scanner.ofString (String.ofList ("a\n 1 $".toList.drop 2))).drain.1 =
        itemsOf [⟨.int 1, ⟨1, 1, 2⟩, ⟨2, 1, 3⟩⟩] (some ⟨.unknownCharacter '$', ⟨3, 1, 4⟩⟩) := by
  have hdrain : (Scanner.ofString "a\n 1 $").drain.1 =
      itemsOf [⟨.ident "a", ⟨0, 1, 1⟩, ⟨1, 1, 2⟩⟩, ⟨.int 1, ⟨3, 2, 2⟩, ⟨4, 2, 3⟩⟩]
        (some ⟨.unknownCharacter '$', ⟨5, 2, 4⟩⟩) := by decide +kernel
  exact scan_cut hdrain 1 2 (by decide) (by decide)

end GoTokens
