import GoTokens.Proofs.Scanner.Run

/-!
One scanner asked in several ways. However its items are asked for one at a time, and
whenever the rest is collected instead, all answers together are the items of a scanner
that is drained at once (`requests_then_scan`). An error or the end of the text ends all
of them: it is the scanner that remembers the failure, since the cursor may stand in the
middle of the text.
-/

namespace GoTokens

theorem itemsOf_error_last {tokens : List Token} {error : Option ScanError}
    {before after : List Item} {e : ScanError}
    (h : itemsOf tokens error = before ++ .error e :: after) : after = [] := by
  induction tokens generalizing before with
  | nil =>
    cases error with
    | none => cases before <;> cases h
    | some e' =>
      rw [itemsOf_nil_some] at h
      cases before with
      | nil => exact (List.cons.inj h).2.symm
      | cons item before =>
        have hlen := congrArg List.length h
        simp at hlen
  | cons t tokens ih =>
    cases before with
    | nil => cases h
    | cons item before => exact ih (List.cons.inj h).2

/-- A result stands for items: for all of them if they are tokens, and for the error at their
end if there is one. -/
def Collects (items : List Item) (result : Except ScanError (List Token)) : Prop :=
  (∀ tokens : List Token, result = .ok tokens ↔ items = tokens.map .ok) ∧
    ∀ error, result = .error error ↔
      ∃ before : List Token, items = before.map .ok ++ [.error error]

theorem collects_itemsOf (tokens : List Token) (error : Option ScanError) :
    Collects (itemsOf tokens error) (resultOf tokens error) := by
  have hok (ts : List Token) : ts.map .ok = itemsOf ts none := (List.append_nil _).symm
  have herror (ts : List Token) (e : ScanError) :
      ts.map .ok ++ [.error e] = itemsOf ts (some e) := rfl
  constructor
  · intro ts
    rw [hok]
    constructor
    · intro h
      cases error <;> cases h
      rfl
    · intro h
      obtain ⟨rfl, rfl⟩ := itemsOf_inj h
      rfl
  · intro e
    constructor
    · intro h
      cases error <;> cases h
      exact ⟨tokens, rfl⟩
    · rintro ⟨before, h⟩
      rw [herror] at h
      obtain ⟨rfl, rfl⟩ := itemsOf_inj h
      rfl

/-- The ways to ask a scanner for one item. -/
inductive Request where
  | next
  | nextToken
deriving DecidableEq, Repr

namespace Scanner

theorem scan_collects (s : Scanner) : Collects s.drain.1 s.scan.1 := by
  obtain ⟨tokens, error, last, hrun⟩ := s.exists_run
  rw [hrun.drain, hrun.scan]
  exact collects_itemsOf tokens error

/-- An answer with the error on the outside, as an item or none. -/
def itemOf? : Except ScanError (Option Token) → Option Item
  | .ok none => none
  | .ok (some token) => some (.ok token)
  | .error error => some (.error error)

def ask (s : Scanner) : Request → Option Item × Scanner
  | .next => s.next
  | .nextToken => (itemOf? s.nextToken.1, s.nextToken.2)

/-- The answers to requests made one after the other, and the scanner that is left. -/
def askAll (s : Scanner) : List Request → List (Option Item) × Scanner
  | [] => ([], s)
  | request :: requests =>
    let (answer, s) := s.ask request
    let (answers, s) := s.askAll requests
    (answer :: answers, s)

theorem ask_eq_next (s : Scanner) (request : Request) : s.ask request = s.next := by
  cases request with
  | next => rfl
  | nextToken =>
    simp only [ask, nextToken]
    match s.next with
    | (none, s') => rfl
    | (some (.ok t), s') => rfl
    | (some (.error e), s') => rfl

theorem askAll_cons (s : Scanner) (request : Request) (requests : List Request) :
    s.askAll (request :: requests) =
      (s.next.1 :: (s.next.2.askAll requests).1, (s.next.2.askAll requests).2) := by
  simp only [askAll, ask_eq_next]

/-- What the answers leave of a run is the run of the scanner that is left. -/
theorem Run.askAll {s last : Scanner} {tokens : List Token} {error : Option ScanError}
    (h : Run s tokens error last) (requests : List Request) :
    ∃ tokens' error', Run (s.askAll requests).2 tokens' error' last ∧
      itemsOf tokens error = (s.askAll requests).1.filterMap id ++ itemsOf tokens' error' := by
  induction requests generalizing s tokens error with
  | nil => exact ⟨tokens, error, h, rfl⟩
  | cons request requests ih =>
    have hlast := h.last_next
    rw [askAll_cons]
    cases h with
    | ended h =>
      rw [h]
      obtain ⟨tokens', error', hrun, hitems⟩ := ih (.ended hlast)
      exact ⟨tokens', error', hrun, hitems⟩
    | token h hrest =>
      rw [h]
      obtain ⟨tokens', error', hrun, hitems⟩ := ih hrest
      exact ⟨tokens', error', hrun, by rw [itemsOf_cons, hitems]; rfl⟩
    | @failed _ _ e h =>
      rw [h]
      obtain ⟨tokens', error', hrun, hitems⟩ := ih (.ended hlast)
      exact ⟨tokens', error', hrun, congrArg (List.cons (Except.error e : Item)) hitems⟩

theorem drain_askAll (s : Scanner) (requests : List Request) :
    s.drain.1 = (s.askAll requests).1.filterMap id ++ (s.askAll requests).2.drain.1 := by
  obtain ⟨tokens, error, last, hrun⟩ := s.exists_run
  obtain ⟨tokens', error', hrest, hitems⟩ := hrun.askAll requests
  rw [hrun.drain, hrest.drain]
  exact hitems

/-- An answer after which there is nothing more. -/
def Ends (answer : Option Item) : Prop := answer = none ∨ ∃ e, answer = some (.error e)

theorem next_of_ends {s s' : Scanner} {answer : Option Item} (h : s.next = (answer, s'))
    (hends : Ends answer) : s'.next = (none, s') := by
  rcases hends with rfl | ⟨e, rfl⟩
  · exact next_ended h
  · exact next_of_failed (next_error_failed h)

theorem askAll_of_ended {s : Scanner} (h : s.next = (none, s)) (requests : List Request) :
    ∀ answer ∈ (s.askAll requests).1, answer = none := by
  induction requests with
  | nil => simp [askAll]
  | cons request requests ih =>
    rw [askAll_cons, h]
    simpa using ih

theorem askAll_ends (s : Scanner) (requests : List Request) :
    (s.askAll requests).1.Pairwise fun earlier later => Ends earlier → later = none := by
  induction requests generalizing s with
  | nil => exact .nil
  | cons request requests ih =>
    rw [askAll_cons, List.pairwise_cons]
    exact ⟨fun later hlater hends => askAll_of_ended (next_of_ends rfl hends) requests later hlater,
      ih _⟩

/-- **All ways of asking agree.** An error is the last item of a source, and collecting gives
the tokens or the error. Whatever has been asked for before, the answers and what is left are
together the items of the source, and collecting what is left gives its tokens or its error,
and nothing if the error has been an answer. After an error and after the end, all answers
are none. -/
theorem requests_then_scan (source : String) :
    (∀ before error after,
      (ofString source).drain.1 = before ++ .error error :: after → after = []) ∧
    Collects (ofString source).drain.1 (GoTokens.scan source) ∧
    ∀ requests : List Request,
      let answers := ((ofString source).askAll requests).1
      let left := ((ofString source).askAll requests).2
      (ofString source).drain.1 = answers.filterMap id ++ left.drain.1 ∧
      Collects left.drain.1 left.scan.1 ∧
      ((∃ error, some (.error error) ∈ answers) → left.scan.1 = .ok []) ∧
      answers.Pairwise fun earlier later => Ends earlier → later = none := by
  obtain ⟨tokens, error, last, hrun⟩ := (ofString source).exists_run
  have hlast {before after : List Item} {e : ScanError}
      (h : (ofString source).drain.1 = before ++ .error e :: after) : after = [] := by
    rw [hrun.drain] at h
    exact itemsOf_error_last h
  refine ⟨fun before e after h => hlast h, scan_collects _, fun requests => ?_⟩
  refine ⟨drain_askAll _ _, scan_collects _, ?_, askAll_ends _ _⟩
  rintro ⟨e, he⟩
  have hmem : .error e ∈ ((ofString source).askAll requests).1.filterMap id :=
    List.mem_filterMap.mpr ⟨_, he, rfl⟩
  obtain ⟨before, after, hsplit⟩ := List.append_of_mem hmem
  have hall := drain_askAll (ofString source) requests
  rw [hsplit, List.append_assoc, List.cons_append] at hall
  have hnothing := (List.append_eq_nil_iff.mp (hlast hall)).2
  exact ((scan_collects _).1 []).mpr hnothing

end Scanner

end GoTokens
