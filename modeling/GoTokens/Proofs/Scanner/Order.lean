import GoTokens.Proofs.Binary64.Text
import GoTokens.Proofs.Scanner.Place
import GoTokens.Proofs.Scanner.Tiling

/-!
The order of the places of one text. A character moves a place to a later line or to a later
column (`before_after`), and so does a text with characters in it (`before_afterAll`). Of two
places in a text, offsets, lines with columns and their texts therefore tell the same
(`IsIn.before_iff`, `IsIn.lineColumn_inj`), and so for all places that cursors and scanners
report (`Reports.order`).
-/

namespace GoTokens

namespace Position

variable {p q r : Position} {cs : List Char}

def Before (p q : Position) : Prop := p.line < q.line ∨ p.line = q.line ∧ p.column < q.column

theorem Before.trans (h : p.Before q) (h' : q.Before r) : p.Before r := by
  unfold Before at *
  omega

theorem Before.asymm (h : p.Before q) : ¬ q.Before p := by
  unfold Before at *
  omega

theorem before_after (p : Position) (c : Char) : p.Before (p.after c) := by
  unfold after
  split
  · exact .inl (Nat.lt_succ_self _)
  · exact .inr ⟨rfl, Nat.lt_succ_self _⟩

theorem before_afterAll (p : Position) (h : cs ≠ []) : p.Before (p.afterAll cs) := by
  induction cs generalizing p with
  | nil => exact absurd rfl h
  | cons c cs ih =>
    rw [afterAll_cons]
    by_cases hcs : cs = []
    · rw [hcs, afterAll_nil]
      exact p.before_after c
    · exact (p.before_after c).trans (ih _ hcs)

/-! ## Places of one text -/

namespace IsIn

theorem eq_of_offset (hp : p.IsIn cs) (hq : q.IsIn cs) (h : p.offset = q.offset) : p = q := by
  rw [hp.eq_inText, hq.eq_inText, h]

theorem eq_afterAll (h : p.IsIn cs) : p = start.afterAll (cs.take p.offset) :=
  h.eq_inText.trans (Cursor.inText_eq_afterAll h.offset_le)

/-- A place with a later offset is reached over the characters between the two. -/
theorem exists_afterAll (hp : p.IsIn cs) (hq : q.IsIn cs) (h : p.offset < q.offset) :
    ∃ between, between ≠ [] ∧ q = p.afterAll between := by
  let between := (cs.take q.offset).drop p.offset
  have hsplit : cs.take q.offset = cs.take p.offset ++ between := by
    have hwhole := List.take_append_drop p.offset (cs.take q.offset)
    rw [List.take_take, Nat.min_eq_left (Nat.le_of_lt h)] at hwhole
    exact hwhole.symm
  have hne : between ≠ [] := by
    have hle := hq.offset_le
    rw [ne_eq, List.drop_eq_nil_iff, List.length_take]
    omega
  refine ⟨between, hne, ?_⟩
  calc q = start.afterAll (cs.take q.offset) := hq.eq_afterAll
    _ = (start.afterAll (cs.take p.offset)).afterAll between := by rw [hsplit, afterAll_append]
    _ = p.afterAll between := by rw [← hp.eq_afterAll]

theorem before_of_offset (hp : p.IsIn cs) (hq : q.IsIn cs) (h : p.offset < q.offset) :
    p.Before q := by
  obtain ⟨between, hne, rfl⟩ := hp.exists_afterAll hq h
  exact p.before_afterAll hne

theorem before_iff (hp : p.IsIn cs) (hq : q.IsIn cs) : p.Before q ↔ p.offset < q.offset := by
  refine ⟨fun h => ?_, hp.before_of_offset hq⟩
  obtain hlt | heq | hgt := Nat.lt_trichotomy p.offset q.offset
  · exact hlt
  · obtain rfl := hp.eq_of_offset hq heq
    exact absurd h h.asymm
  · exact absurd (hq.before_of_offset hp hgt) h.asymm

theorem eq_of_lineColumn (hp : p.IsIn cs) (hq : q.IsIn cs) (hline : p.line = q.line)
    (hcolumn : p.column = q.column) : p = q := by
  have hnot : ¬ p.Before q ∧ ¬ q.Before p := by
    unfold Before
    omega
  rw [hp.before_iff hq, hq.before_iff hp] at hnot
  exact hp.eq_of_offset hq (by omega)

end IsIn

/-- Neither number has a colon in it, so the one colon of the text parts them. -/
theorem lineColumn_injective (h : p.lineColumn = q.lineColumn) :
    p.line = q.line ∧ p.column = q.column := by
  have hcolon (n : Nat) : ':' ∉ (toString n).toList := by
    intro hmem
    exact absurd ((Json.isDigits_toString n).digits _ hmem) (by decide)
  have hnumber {m n : Nat} (h : (toString m).toList = (toString n).toList) : m = n := by
    have hvalue := congrArg (Nat.ofDigitChars 10 · 0) h
    simpa [Nat.toString_eq_ofList_toDigits] using hvalue
  have hchars := congrArg String.toList h
  have hmark : ":".toList = [':'] := rfl
  simp only [lineColumn, String.toList_append, List.append_assoc, hmark,
    List.singleton_append] at hchars
  obtain ⟨hline, -, hcolumn⟩ :=
    (List.append_cons_inj_of_notMem (hcolon p.line) (hcolon p.column)).mp hchars
  exact ⟨hnumber hline, hnumber hcolumn⟩

theorem IsIn.lineColumn_inj (hp : p.IsIn cs) (hq : q.IsIn cs) :
    p.lineColumn = q.lineColumn ↔ p = q := by
  refine ⟨fun h => ?_, congrArg lineColumn⟩
  obtain ⟨hline, hcolumn⟩ := lineColumn_injective h
  exact hp.eq_of_lineColumn hq hline hcolumn

def compareLineColumn (p q : Position) : Ordering :=
  (compare p.line q.line).then (compare p.column q.column)

theorem Before.compareLineColumn (h : p.Before q) : p.compareLineColumn q = .lt := by
  obtain hline | ⟨hline, hcolumn⟩ := h
  · rw [Position.compareLineColumn, Nat.compare_eq_lt.mpr hline]
    rfl
  · rw [Position.compareLineColumn, Nat.compare_eq_eq.mpr hline, Nat.compare_eq_lt.mpr hcolumn]
    rfl

theorem swap_compareLineColumn (p q : Position) :
    (p.compareLineColumn q).swap = q.compareLineColumn p := by
  rw [compareLineColumn, Ordering.swap_then, Nat.compare_swap, Nat.compare_swap]
  rfl

theorem IsIn.compare_offset (hp : p.IsIn cs) (hq : q.IsIn cs) :
    compare p.offset q.offset = p.compareLineColumn q := by
  obtain hlt | heq | hgt := Nat.lt_trichotomy p.offset q.offset
  · rw [Nat.compare_eq_lt.mpr hlt, (hp.before_of_offset hq hlt).compareLineColumn]
  · obtain rfl := hp.eq_of_offset hq heq
    rw [compareLineColumn, Nat.compare_eq_eq.mpr rfl, Nat.compare_eq_eq.mpr rfl,
      Nat.compare_eq_eq.mpr rfl]
    rfl
  · rw [← swap_compareLineColumn, (hq.before_of_offset hp hgt).compareLineColumn,
      Nat.compare_eq_gt.mpr hgt]
    rfl

theorem compare_eq (p q : Position) :
    compare p q = (compare p.offset q.offset).then (p.compareLineColumn q) := rfl

theorem IsIn.compare_eq_offset (hp : p.IsIn cs) (hq : q.IsIn cs) :
    compare p q = compare p.offset q.offset := by
  rw [compare_eq, ← hp.compare_offset hq]
  exact Ordering.then_self

end Position

/-! ## Places that are reported -/

def placesOf : Item → List Position
  | .ok t => [t.start, t.stop]
  | .error e => [e.position]

/-- The places that cursors and scanners over a source report: where they stand, whatever moves
have been made and whatever items have been asked for, and what stands in these items, in the
tokens that are collected after them and in the error that comes instead. -/
inductive Reports (source : String) : Position → Prop
  | cursor (moves : List Cursor.Move) :
      Reports source
        (Cursor.run Cursor.Step.onCursor moves ⟨Cursor.ofString source, []⟩).inUse.position
  | scanner (requests : List Request) :
      Reports source ((Scanner.ofString source).askAll requests).2.cursor.position
  | item {requests : List Request} {item : Item} {p : Position} :
      some item ∈ ((Scanner.ofString source).askAll requests).1 → p ∈ placesOf item →
      Reports source p
  | collected {requests : List Request} {tokens : List Token} {t : Token} {p : Position} :
      ((Scanner.ofString source).askAll requests).2.scan.1 = .ok tokens → t ∈ tokens →
      p ∈ placesOf (.ok t) → Reports source p
  | uncollected {requests : List Request} {e : ScanError} :
      ((Scanner.ofString source).askAll requests).2.scan.1 = .error e →
      Reports source e.position

theorem Cursor.StandsAt.isIn {c : Cursor} {cs : List Char} {k : Nat} (h : c.StandsAt cs k) :
    c.position.IsIn cs := by
  rw [h.eq_atIndex]
  exact ⟨h.le, rfl⟩

/-- The places in the items of a source are in the source. -/
theorem isIn_of_mem_drain {source : String} {item : Item} {p : Position}
    (hitem : item ∈ (Scanner.ofString source).drain.1) (hp : p ∈ placesOf item) :
    p.IsIn source.toList := by
  obtain ⟨tokens, error, hread⟩ := exists_reading .start source.toList
  have htiling : Tiling ([] ++ source.toList) 0 tokens error := hread.tiling rfl
  rw [hread.drain] at hitem
  cases item with
  | ok t =>
    obtain ⟨hstart, hstop⟩ := htiling.places.1 t (mem_of_mem_itemsOf hitem)
    obtain rfl | rfl := List.mem_pair.mp hp
    · exact hstart
    · exact hstop
  | error e =>
    obtain rfl := List.mem_singleton.mp hp
    exact htiling.places.2 e (eq_some_of_mem_itemsOf hitem)

namespace Reports

variable {source : String} {p q : Position}

theorem isIn (h : Reports source p) : p.IsIn source.toList := by
  cases h with
  | cursor moves =>
    have hstart : (Cursor.ofString source).StandsAt source.toList 0 :=
      Cursor.standsAt_atIndex (Nat.zero_le _)
    have hheld : Cursor.Held.StandAt ⟨Cursor.ofString source, []⟩ source.toList ⟨0, []⟩ :=
      ⟨hstart, .nil⟩
    exact (hheld.run moves).inUse.isIn
  | scanner requests =>
    obtain ⟨k, hk⟩ := Scanner.askAll_standsAt (Scanner.ofString_standsAt source) requests
    exact hk.isIn
  | @item requests item _ hitem hp =>
    refine isIn_of_mem_drain ?_ hp
    rw [Scanner.drain_askAll _ requests]
    exact List.mem_append_left _ (List.mem_filterMap.mpr ⟨_, hitem, rfl⟩)
  | @collected requests tokens t _ hscan ht hp =>
    have hitem : .ok t ∈ (Scanner.ofString source).drain.1 := by
      rw [Scanner.drain_askAll _ requests, ((Scanner.scan_collects _).1 tokens).mp hscan]
      exact List.mem_append_right _ (List.mem_map_of_mem ht)
    exact isIn_of_mem_drain hitem hp
  | @uncollected requests e hscan =>
    obtain ⟨before, hitems⟩ := ((Scanner.scan_collects _).2 e).mp hscan
    have hitem : .error e ∈ (Scanner.ofString source).drain.1 := by
      rw [Scanner.drain_askAll _ requests, hitems]
      simp
    exact isIn_of_mem_drain hitem (List.mem_singleton_self _)

/-- **Line and column are a place.** Of two places that cursors and scanners over one source report,
one has the earlier offset if it has the earlier line, or the same line and the earlier column, and
only then; they are one place if their texts with line and column are equal, and only then. So
places are ordered by their offsets alone, and by their lines with columns alone. Lines and columns
of a source of up to `2 ^ 32 - 2` characters have 32 bits. -/
theorem order (hp : Reports source p) (hq : Reports source q) :
    (p.offset < q.offset ↔ p.line < q.line ∨ p.line = q.line ∧ p.column < q.column) ∧
    (p = q ↔ p.lineColumn = q.lineColumn) ∧
    compare p q = compare p.offset q.offset ∧
    compare p q = (compare p.line q.line).then (compare p.column q.column) ∧
    p.line ≤ source.length + 1 ∧ p.column ≤ source.length + 1 := by
  have hpIn := hp.isIn
  have hqIn := hq.isIn
  have hoffset := hpIn.compare_eq_offset hqIn
  refine ⟨(hpIn.before_iff hqIn).symm, (hpIn.lineColumn_inj hqIn).symm, hoffset,
    hoffset.trans (hpIn.compare_offset hqIn), ?_⟩
  rw [← String.length_toList]
  exact hpIn.bounded

/-- The end of a line by a cursor, and the beginning of the token behind it by a scanner. -/
theorem order_line_end :
    let p := (Cursor.run Cursor.Step.onCursor [.step .advance, .step .advance]
      ⟨Cursor.ofString "ab\nc", []⟩).inUse.position
    Reports "ab\nc" p ∧ Reports "ab\nc" ⟨3, 2, 1⟩ ∧ p = ⟨2, 1, 3⟩ ∧
      compare p ⟨3, 2, 1⟩ = compare p.offset 3 ∧
      (p = ⟨3, 2, 1⟩ ↔ p.lineColumn = "2:1") := by
  intro p
  have hp : Reports "ab\nc" p := .cursor _
  have hanswer : some (.ok ⟨.ident "c", ⟨3, 2, 1⟩, ⟨4, 2, 2⟩⟩) ∈
      ((Scanner.ofString "ab\nc").askAll [.next, .nextToken]).1 := by decide +kernel
  have hq : Reports "ab\nc" ⟨3, 2, 1⟩ := .item hanswer (List.mem_cons_self ..)
  obtain ⟨-, htext, hcompare, -⟩ := order hp hq
  exact ⟨hp, hq, by decide +kernel, hcompare, htext⟩

end Reports

end GoTokens
