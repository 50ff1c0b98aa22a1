/-!
Sets of code points, kept as a search tree over disjoint ranges. A table of
ranges in ascending order becomes a tree whose depth is logarithmic in its
length, so that membership costs a handful of comparisons; the tree answers
exactly as a walk through the table would (`contains_ofRanges`).
-/

namespace GoTokens.Text

/-- Disjoint ranges of code points, both ends included, as a search tree. -/
inductive CharSet where
  | empty
  | node (below : CharSet) (first last : Nat) (above : CharSet)

namespace CharSet

def contains : CharSet → Nat → Bool
  | empty, _ => false
  | node below first last above, n =>
    if n < first then below.contains n
    else if n ≤ last then true
    else above.contains n

/-- A tree of at most the given depth over as many ranges of the table as fit,
with the ranges left over. -/
def build : Nat → List (Nat × Nat) → CharSet × List (Nat × Nat)
  | 0, ranges => (empty, ranges)
  | depth + 1, ranges =>
    let (below, rest) := build depth ranges
    match rest with
    | [] => (below, [])
    | (first, last) :: rest =>
      let (above, rest) := build depth rest
      (node below first last above, rest)

/-- The set of an ascending table of ranges. -/
def ofRanges (ranges : List (Nat × Nat)) : CharSet :=
  (build (ranges.length.log2 + 1) ranges).1

/-- Ranges are not empty, and each begins after the one before it has ended. -/
def ascending : List (Nat × Nat) → Bool
  | [] => true
  | r :: rs => r.1 ≤ r.2 && rs.head?.all (r.2 < ·.1) && ascending rs

def inRanges (ranges : List (Nat × Nat)) (n : Nat) : Bool :=
  ranges.any fun r => r.1 ≤ n && n ≤ r.2

theorem ascending_cons {r : Nat × Nat} {rs : List (Nat × Nat)} :
    ascending (r :: rs) = true ↔
      r.1 ≤ r.2 ∧ (∀ s ∈ rs, r.2 < s.1) ∧ ascending rs = true := by
  induction rs generalizing r with
  | nil => simp [ascending]
  | cons s rs ih =>
    rw [ascending, Bool.and_eq_true, Bool.and_eq_true, ih]
    simp only [List.head?_cons, Option.all_some, decide_eq_true_eq, List.forall_mem_cons]
    constructor
    · rintro ⟨⟨hr, hs⟩, hss, hall, hrest⟩
      exact ⟨hr, ⟨hs, fun t ht => by have := hall t ht; omega⟩, hss, hall, hrest⟩
    · rintro ⟨hr, ⟨hs, _⟩, hrest⟩
      exact ⟨⟨hr, hs⟩, hrest⟩

theorem ascending_append {xs ys : List (Nat × Nat)} (h : ascending (xs ++ ys) = true) :
    ascending ys = true ∧ ∀ r ∈ xs, ∀ s ∈ ys, r.2 < s.1 := by
  induction xs with
  | nil => simpa using h
  | cons r rs ih =>
    obtain ⟨_, hall, hrest⟩ := ascending_cons.1 h
    obtain ⟨hys, hlt⟩ := ih hrest
    refine ⟨hys, fun a ha s hs => ?_⟩
    rcases List.mem_cons.1 ha with rfl | ha
    · exact hall s (by simp [hs])
    · exact hlt a ha s hs

/-- A tree of depth `d` takes up to `2 ^ d - 1` ranges off the front of the table
and answers for those. -/
theorem build_spec (depth : Nat) (ranges : List (Nat × Nat)) (h : ascending ranges = true) :
    ∃ used, ranges = used ++ (build depth ranges).2 ∧
      (∀ n, (build depth ranges).1.contains n = inRanges used n) ∧
      ((build depth ranges).2 = [] ∨ used.length + 1 = Nat.pow 2 depth) := by
  induction depth generalizing ranges with
  | zero => exact ⟨[], by simp [build, contains, inRanges]⟩
  | succ depth ih =>
    obtain ⟨low, hlow, hcl, hfull⟩ := ih ranges h
    match hb : build depth ranges with
    | (below, []) =>
      rw [hb] at hlow hcl
      exact ⟨low, by simpa [build, hb] using hlow, by simpa [build, hb] using hcl,
        by simp [build, hb]⟩
    | (below, (first, last) :: rest) =>
      rw [hb] at hlow hcl hfull
      obtain ⟨hys, hlt⟩ := ascending_append (hlow ▸ h)
      obtain ⟨hle, habove, hrest⟩ := ascending_cons.1 hys
      obtain ⟨high, hhigh, hch, hfull'⟩ := ih rest hrest
      refine ⟨low ++ (first, last) :: high, ?_, ?_, ?_⟩
      · have left : (build (depth + 1) ranges).2 = (build depth rest).2 := by simp [build, hb]
        rw [left, List.append_assoc, List.cons_append, ← hhigh]
        exact hlow
      · intro n
        simp only [build, hb, contains, hcl, hch, inRanges, List.any_append, List.any_cons]
        have hlo : first ≤ n → (low.any fun r => r.1 ≤ n && n ≤ r.2) = false := by
          intro hn
          rw [List.any_eq_false]
          intro r hr
          have := hlt r hr (first, last) (by simp)
          simp at *
          omega
        have hhi : n ≤ last → (high.any fun r => r.1 ≤ n && n ≤ r.2) = false := by
          intro hn
          rw [List.any_eq_false]
          intro r hr
          have := habove r (by rw [hhigh]; simp [hr])
          simp at *
          omega
        have hle : first ≤ last := hle
        by_cases h1 : n < first
        · have : n ≤ last := by omega
          simp [h1, hhi this, Nat.not_le.2 h1]
        · have hf : first ≤ n := by omega
          by_cases h2 : n ≤ last
          · simp [h1, h2, hf]
          · simp [h1, h2, hlo hf]
      · simp only [build, hb]
        rcases hfull with hz | hfull
        · simp at hz
        · rcases hfull' with hz | hfull'
          · exact .inl hz
          · right
            show (low ++ (first, last) :: high).length + 1 = Nat.pow 2 depth * 2
            simp only [List.length_append, List.length_cons]
            omega

theorem contains_ofRanges {ranges : List (Nat × Nat)} (h : ascending ranges = true) (n : Nat) :
    (ofRanges ranges).contains n = inRanges ranges n := by
  obtain ⟨used, heq, hc, hfull⟩ := build_spec (ranges.length.log2 + 1) ranges h
  have hrest : (build (ranges.length.log2 + 1) ranges).2 = [] := by
    rcases hfull with hz | hfull
    · exact hz
    · have hlen := congrArg List.length heq
      simp only [List.length_append] at hlen
      have : ranges.length < Nat.pow 2 (ranges.length.log2 + 1) := Nat.lt_log2_self
      exact List.eq_nil_of_length_eq_zero (by omega)
  rw [hrest, List.append_nil] at heq
  rw [ofRanges, hc, heq]

end CharSet

end GoTokens.Text
