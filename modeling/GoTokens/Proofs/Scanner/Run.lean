import GoTokens.Scanner

/-!
What a scanner hands out from where it is: tokens, then an error if one comes, and
nothing more. `Run` says so one item at a time; every loop over a scanner is settled by
one induction on it. A failed scanner and one at the end of its text have come to the end
for good (`next_ended`).
-/

namespace GoTokens

/-- Tokens, and the error after them if there is one, as they are handed out. -/
def itemsOf (tokens : List Token) (error : Option ScanError) : List Item :=
  tokens.map .ok ++ error.toList.map .error

/-- Tokens, or the error that comes after them, as they are collected. -/
def resultOf (tokens : List Token) (error : Option ScanError) :
    Except ScanError (List Token) :=
  error.elim (.ok tokens) .error

@[simp] theorem itemsOf_nil_none : itemsOf [] none = [] := rfl

@[simp] theorem itemsOf_nil_some (error : ScanError) : itemsOf [] (some error) = [.error error] :=
  rfl

@[simp] theorem itemsOf_cons (token : Token) (tokens : List Token) (error : Option ScanError) :
    itemsOf (token :: tokens) error = .ok token :: itemsOf tokens error := rfl

theorem itemsOf_inj {tokens tokens' : List Token} {error error' : Option ScanError}
    (h : itemsOf tokens error = itemsOf tokens' error') : tokens = tokens' ∧ error = error' := by
  induction tokens generalizing tokens' with
  | nil =>
    cases tokens' with
    | nil => cases error <;> cases error' <;> simp_all
    | cons t tokens' => cases error <;> simp at h
  | cons t tokens ih =>
    cases tokens' with
    | nil => cases error' <;> simp at h
    | cons t' tokens' =>
      simp only [itemsOf_cons, List.cons.injEq, Except.ok.injEq] at h
      obtain ⟨rfl, h⟩ := h
      obtain ⟨rfl, rfl⟩ := ih h
      exact ⟨rfl, rfl⟩

theorem itemsOf_getElem?_ok {tokens : List Token} {error : Option ScanError} {k : Nat} {t : Token}
    (h : (itemsOf tokens error)[k]? = some (.ok t)) : tokens[k]? = some t := by
  rcases Nat.lt_or_ge k tokens.length with hk | hk
  · rw [itemsOf, List.getElem?_append_left (by simpa using hk), List.getElem?_map,
      Option.map_eq_some_iff] at h
    obtain ⟨u, hu, heq⟩ := h
    cases heq
    exact hu
  · rw [itemsOf, List.getElem?_append_right (by simpa using hk)] at h
    obtain ⟨e, -, heq⟩ := List.mem_map.mp (List.mem_of_getElem? h)
    cases heq

theorem mem_of_mem_itemsOf {tokens : List Token} {error : Option ScanError} {t : Token}
    (h : .ok t ∈ itemsOf tokens error) : t ∈ tokens := by
  obtain ⟨k, hk⟩ := List.getElem?_of_mem h
  exact List.mem_of_getElem? (itemsOf_getElem?_ok hk)

theorem eq_some_of_mem_itemsOf {tokens : List Token} {error : Option ScanError} {e : ScanError}
    (h : .error e ∈ itemsOf tokens error) : error = some e := by
  rcases List.mem_append.mp h with h | h
  · obtain ⟨t, -, heq⟩ := List.mem_map.mp h
    cases heq
  · obtain ⟨e', he', heq⟩ := List.mem_map.mp h
    cases heq
    exact Option.mem_toList.mp he'

theorem itemsOf_take {tokens : List Token} {n : Nat} (h : n ≤ tokens.length)
    (error : Option ScanError) : (itemsOf tokens error).take n = (tokens.take n).map .ok := by
  rw [itemsOf, List.take_append_of_le_length (by simpa using h), List.map_take]

namespace Scanner

/-- The cursor behind the blanks, where the next lexeme begins. -/
def ahead (s : Scanner) : Cursor := s.cursor.eatWhile Text.isBlank

section

variable {s s' : Scanner} {c : Char} {cs : List Char} {value : TokenValue} {fault : Fault} {n : Nat}

theorem next_of_failed (h : s.failed = true) : s.next = (none, s) := by
  rw [next, if_pos h]

theorem next_of_nil (hf : s.failed = false) (h : s.ahead.rest = []) :
    s.next = (none, { s with cursor := s.ahead }) := by
  rw [ahead] at h
  simp only [next, hf, Bool.false_eq_true, if_false, h, ahead]

theorem next_of_token (hf : s.failed = false) (h : s.ahead.rest = c :: cs)
    (hlex : Lexeme.atFront c cs = .token value n) :
    s.next = (some (.ok ⟨value, s.ahead.position, (s.ahead.skip n).position⟩),
      { s with cursor := s.ahead.skip n }.record
        (.token ⟨value, s.ahead.position, (s.ahead.skip n).position⟩)) := by
  rw [ahead] at h
  simp only [next, hf, Bool.false_eq_true, if_false, h, hlex, ahead]

theorem next_of_fault (hf : s.failed = false) (h : s.ahead.rest = c :: cs)
    (hlex : Lexeme.atFront c cs = .fault fault n) :
    s.next = (some (.error ⟨fault, s.ahead.position⟩),
      { s with cursor := s.ahead.skip n, failed := true }.record
        (.scanFailed ⟨fault, s.ahead.position⟩)) := by
  rw [ahead] at h
  simp only [next, hf, Bool.false_eq_true, if_false, h, hlex, ahead]

/-- All that can happen when a scanner is asked for an item. -/
theorem next_cases (s : Scanner) :
    s.failed = true ∨ s.failed = false ∧ (s.ahead.rest = [] ∨
      ∃ c cs, s.ahead.rest = c :: cs ∧
        ((∃ value n, Lexeme.atFront c cs = .token value n) ∨
          ∃ fault n, Lexeme.atFront c cs = .fault fault n)) := by
  cases s.failed with
  | true => exact .inl rfl
  | false =>
    refine .inr ⟨rfl, ?_⟩
    cases s.ahead.rest with
    | nil => exact .inl rfl
    | cons c cs =>
      refine .inr ⟨c, cs, rfl, ?_⟩
      cases Lexeme.atFront c cs with
      | token value n => exact .inl ⟨value, n, rfl⟩
      | fault fault n => exact .inr ⟨fault, n, rfl⟩

theorem next_eq_token {t : Token} (h : s.next = (some (.ok t), s')) :
    ∃ c cs n, s.ahead.rest = c :: cs ∧ Lexeme.atFront c cs = .token t.value n ∧
      t.start = s.ahead.position ∧ t.stop = (s.ahead.skip n).position ∧
      s'.cursor = s.ahead.skip n := by
  rcases s.next_cases with hf | ⟨hf, hr | ⟨c, cs, hr, ⟨value, n, hl⟩ | ⟨fault, n, hl⟩⟩⟩
  · rw [next_of_failed hf] at h; cases h
  · rw [next_of_nil hf hr] at h; cases h
  · rw [next_of_token hf hr hl] at h; cases h; exact ⟨c, cs, n, hr, hl, rfl, rfl, rfl⟩
  · rw [next_of_fault hf hr hl] at h; cases h

theorem next_eq_error {e : ScanError} (h : s.next = (some (.error e), s')) :
    ∃ c cs n, s.ahead.rest = c :: cs ∧ Lexeme.atFront c cs = .fault e.fault n ∧
      e.position = s.ahead.position ∧ s'.cursor = s.ahead.skip n ∧ s'.failed = true := by
  rcases s.next_cases with hf | ⟨hf, hr | ⟨c, cs, hr, ⟨value, n, hl⟩ | ⟨fault, n, hl⟩⟩⟩
  · rw [next_of_failed hf] at h; cases h
  · rw [next_of_nil hf hr] at h; cases h
  · rw [next_of_token hf hr hl] at h; cases h
  · rw [next_of_fault hf hr hl] at h; cases h; exact ⟨c, cs, n, hr, hl, rfl, rfl, rfl⟩

theorem next_error_failed {e : ScanError} (h : s.next = (some (.error e), s')) :
    s'.failed = true := by
  obtain ⟨-, -, -, -, -, -, -, hfailed⟩ := next_eq_error h
  exact hfailed

theorem next_ended (h : s.next = (none, s')) : s'.next = (none, s') := by
  rcases s.next_cases with hf | ⟨hf, hr | ⟨c, cs, hr, ⟨value, n, hl⟩ | ⟨fault, n, hl⟩⟩⟩
  · rw [next_of_failed hf] at h
    cases h
    exact next_of_failed hf
  · rw [next_of_nil hf hr] at h
    cases h
    have hstay : s.ahead.eatWhile Text.isBlank = s.ahead := by
      rw [Cursor.eatWhile, Cursor.eatWhileFrom, hr]
      rfl
    have hnext := next_of_nil (s := { s with cursor := s.ahead }) hf
      ((congrArg Cursor.rest hstay).trans hr)
    rw [hnext]
    exact congrArg (fun cursor => (none, { s with cursor })) hstay
  · rw [next_of_token hf hr hl] at h; cases h
  · rw [next_of_fault hf hr hl] at h; cases h

/-- What has been reported before does not matter to what comes next. -/
theorem next_log (s : Scanner) (log : List Event) :
    ∃ log', { s with log }.next = (s.next.1, { s.next.2 with log := log' }) := by
  rcases s.next_cases with hf | ⟨hf, hr | ⟨c, cs, hr, ⟨value, n, hl⟩ | ⟨fault, n, hl⟩⟩⟩
  · exact ⟨log, by rw [next_of_failed hf]; exact next_of_failed hf⟩
  · exact ⟨log, by rw [next_of_nil hf hr]; exact next_of_nil hf hr⟩
  · exact ⟨_, by rw [next_of_token hf hr hl]; exact next_of_token hf hr hl⟩
  · exact ⟨_, by rw [next_of_fault hf hr hl]; exact next_of_fault hf hr hl⟩

end

/-! ## All items -/

/-- Asked again and again, a scanner hands out some tokens, then an error if there is one,
and then nothing; `last` is the scanner that is left. -/
inductive Run : Scanner → List Token → Option ScanError → Scanner → Prop where
  | ended {s last : Scanner} : s.next = (none, last) → Run s [] none last
  | token {s s' last : Scanner} {t : Token} {tokens : List Token} {error : Option ScanError} :
      s.next = (some (.ok t), s') → Run s' tokens error last → Run s (t :: tokens) error last
  | failed {s last : Scanner} {e : ScanError} :
      s.next = (some (.error e), last) → Run s [] (some e) last

theorem exists_run (s : Scanner) : ∃ tokens error last, Run s tokens error last := by
  match h : s.next with
  | (none, s') => exact ⟨[], none, s', .ended h⟩
  | (some (.error e), s') => exact ⟨[], some e, s', .failed h⟩
  | (some (.ok t), s') =>
    obtain ⟨tokens, error, last, hrun⟩ := exists_run s'
    exact ⟨t :: tokens, error, last, .token h hrun⟩
termination_by s.remaining
decreasing_by exact remaining_next h

theorem Run.last_next {s last : Scanner} {tokens : List Token} {error : Option ScanError}
    (h : Run s tokens error last) : last.next = (none, last) := by
  induction h with
  | ended h => exact next_ended h
  | token _ _ ih => exact ih
  | failed h => exact next_of_failed (next_error_failed h)

/-! ## The loops over a scanner -/

theorem drainAfter_none {s s' : Scanner} (h : s.next = (none, s')) (before : List Item) :
    s.drainAfter before = (before.reverse, s') := by
  rw [drainAfter]
  split <;> simp_all

theorem drainAfter_some {s s' : Scanner} {item : Item} (h : s.next = (some item, s'))
    (before : List Item) : s.drainAfter before = s'.drainAfter (item :: before) := by
  rw [drainAfter]
  split <;> simp_all

theorem Run.drainAfter {s last : Scanner} {tokens : List Token} {error : Option ScanError}
    (h : Run s tokens error last) (before : List Item) :
    s.drainAfter before = (before.reverse ++ itemsOf tokens error, last) := by
  induction h generalizing before with
  | ended h => rw [drainAfter_none h, itemsOf_nil_none, List.append_nil]
  | token h _ ih =>
    rw [drainAfter_some h, ih, itemsOf_cons, List.reverse_cons, List.append_assoc]
    rfl
  | failed h =>
    have hlast := next_of_failed (next_error_failed h)
    rw [drainAfter_some h, drainAfter_none hlast, itemsOf_nil_some, List.reverse_cons]

theorem Run.drain {s last : Scanner} {tokens : List Token} {error : Option ScanError}
    (h : Run s tokens error last) : s.drain = (itemsOf tokens error, last) := h.drainAfter []

theorem Run.collectAfter {s last : Scanner} {tokens : List Token} {error : Option ScanError}
    (h : Run s tokens error last) (before : List Token) :
    s.collectAfter before = (resultOf (before.reverse ++ tokens) error, last) := by
  induction h generalizing before with
  | ended h =>
    rw [Scanner.collectAfter]
    split <;> simp_all [resultOf]
  | @token s s' last t tokens error h _ ih =>
    have hstep : s.collectAfter before = s'.collectAfter (t :: before) := by
      rw [Scanner.collectAfter]
      split <;> simp_all
    rw [hstep, ih, List.reverse_cons, List.append_assoc]
    rfl
  | failed h =>
    rw [Scanner.collectAfter]
    split <;> simp_all [resultOf]

theorem Run.log {s last : Scanner} {tokens : List Token} {error : Option ScanError}
    (h : Run s tokens error last) (log : List Event) :
    ∃ log', Run { s with log } tokens error { last with log := log' } := by
  induction h generalizing log with
  | @ended s last h =>
    obtain ⟨log', hlog⟩ := next_log s log
    rw [h] at hlog
    exact ⟨log', .ended hlog⟩
  | @token s _ _ _ _ _ h _ ih =>
    obtain ⟨log₁, hlog⟩ := next_log s log
    rw [h] at hlog
    obtain ⟨log', hrun⟩ := ih log₁
    exact ⟨log', .token hlog hrun⟩
  | @failed s last e h =>
    obtain ⟨log', hlog⟩ := next_log s log
    rw [h] at hlog
    exact ⟨log', .failed hlog⟩

/-- Collecting gives all the tokens of a run, or its error in their place. -/
theorem Run.scan {s last : Scanner} {tokens : List Token} {error : Option ScanError}
    (h : Run s tokens error last) : s.scan.1 = resultOf tokens error := by
  obtain ⟨log, hrun⟩ := h.log (.scanStarted s.cursor.sourceBytes :: s.log)
  have hcollect : (s.record (.scanStarted s.cursor.sourceBytes)).collectAfter [] = _ :=
    hrun.collectAfter []
  cases error <;> rw [Scanner.scan, hcollect] <;> rfl

end Scanner

end GoTokens
