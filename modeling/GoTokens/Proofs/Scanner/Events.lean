import GoTokens.Proofs.Scanner.Place

/-!
What a scanner reports of what it hands out. Each item is one event (`eventOf`), recorded when it
is handed out (`next_events`), and so the events of any requests are the answers to them
(`askAll_events`). Collecting reports its beginning, an event for each item, and its end if it
comes to one (`scan_events`); so the log tells what was handed out and what was collected, also
where an error has dropped it (`log_mirrors_items`).
-/

namespace GoTokens

def eventOf : Item → Event
  | .ok t => .token t
  | .error e => .scanFailed e

/-- What is shown of an event: its level, its message and its details. -/
def Event.shown (e : Event) : Level × String × List (String × String) :=
  (e.level, e.message, e.fields)

theorem map_eventOf_itemsOf (tokens : List Token) (error : Option ScanError) :
    (itemsOf tokens error).map eventOf = tokens.map .token ++ error.toList.map .scanFailed := by
  rw [itemsOf, List.map_append, List.map_map, List.map_map]
  rfl

/-- Items are divided before the error, or behind it. -/
theorem itemsOf_eq_append {tokens tokens' : List Token} {error error' : Option ScanError}
    {before : List Item} (h : itemsOf tokens error = before ++ itemsOf tokens' error') :
    ∃ front reached, before = itemsOf front reached ∧
      (reached ≠ none → tokens' = [] ∧ error' = none) := by
  induction before generalizing tokens with
  | nil => exact ⟨[], none, rfl, fun hne => absurd rfl hne⟩
  | cons item before ih =>
    cases tokens with
    | cons t tokens =>
      obtain ⟨rfl, hrest⟩ := List.cons.inj h
      obtain ⟨front, reached, rfl, hreached⟩ := ih hrest
      exact ⟨t :: front, reached, rfl, hreached⟩
    | nil =>
      cases error with
      | none => cases h
      | some e =>
        obtain ⟨rfl, hrest⟩ := List.cons.inj h
        obtain ⟨rfl, hnothing⟩ := List.append_eq_nil_iff.mp hrest.symm
        obtain ⟨rfl, rfl⟩ := itemsOf_inj (hnothing.trans itemsOf_nil_none.symm)
        exact ⟨[], some e, rfl, fun _ => ⟨rfl, rfl⟩⟩

namespace Scanner

variable {s last : Scanner} {tokens : List Token} {error : Option ScanError}

theorem events_trace (s : Scanner) : s.events .trace = s.log.reverse := by
  have hall : ∀ e ∈ s.log, e.level.isShownAt .trace = true := fun e _ => by cases e <;> rfl
  rw [events, List.filter_eq_self.mpr hall]

theorem events_debug (s : Scanner) :
    s.events .debug = (s.events .trace).filter (·.level ≠ .trace) := by
  have hlevel (e : Event) : e.level.isShownAt .debug = decide (e.level ≠ .trace) := by
    cases e <;> rfl
  rw [events_trace, List.filter_reverse, events]
  congr 1
  exact List.filter_congr fun e _ => hlevel e

theorem events_record (s : Scanner) (event : Event) :
    (s.record event).events .trace = s.events .trace ++ [event] := by
  rw [events_trace, events_trace, record, List.reverse_cons]

theorem next_events (s : Scanner) :
    s.next.2.events .trace = s.events .trace ++ (s.next.1.map eventOf).toList := by
  rcases s.next_cases with hf | ⟨hf, hr | ⟨c, cs, hr, ⟨value, n, hl⟩ | ⟨fault, n, hl⟩⟩⟩
  · rw [next_of_failed hf]
    exact (List.append_nil _).symm
  · rw [next_of_nil hf hr]
    exact (List.append_nil _).symm
  · rw [next_of_token hf hr hl]
    exact events_record _ _
  · rw [next_of_fault hf hr hl]
    exact events_record _ _

theorem askAll_events (s : Scanner) (requests : List Request) :
    (s.askAll requests).2.events .trace =
      s.events .trace ++ ((s.askAll requests).1.filterMap id).map eventOf := by
  induction requests generalizing s with
  | nil => exact (List.append_nil _).symm
  | cons request requests ih =>
    rw [askAll_cons, ih, next_events, List.append_assoc]
    cases s.next.1 <;> rfl

theorem Run.events (h : Run s tokens error last) :
    last.events .trace = s.events .trace ++ (itemsOf tokens error).map eventOf := by
  induction h with
  | @ended s last h =>
    have hnext := s.next_events
    rw [h] at hnext
    exact hnext
  | @token s s' last t tokens error h _ ih =>
    have hnext := s.next_events
    rw [h] at hnext
    rw [ih, hnext, List.append_assoc]
    rfl
  | @failed s last e h =>
    have hnext := s.next_events
    rw [h] at hnext
    exact hnext

/-- What is reported of the end of collecting, where it comes to one. -/
def finished : Except ScanError (List Token) → List Event
  | .ok tokens => [.scanFinished tokens.length]
  | .error _ => []

/-- Collecting reports that it begins, what is handed out, and that it has ended. -/
theorem scan_events (s : Scanner) : s.scan.2.events .trace =
    s.events .trace ++ .scanStarted s.cursor.sourceBytes ::
      (s.drain.1.map eventOf ++ finished s.scan.1) := by
  let begun := s.record (.scanStarted s.cursor.sourceBytes)
  obtain ⟨tokens, error, last, hrun⟩ := s.exists_run
  obtain ⟨log, hbegun⟩ : ∃ log, begun.Run tokens error { last with log } := hrun.log _
  have hcollect : begun.collectAfter [] = (resultOf tokens error, { last with log }) :=
    hbegun.collectAfter []
  have hevents := hbegun.events
  rw [events_record] at hevents
  rw [hrun.drain, hrun.scan, Scanner.scan, hcollect]
  cases error with
  | none =>
    simp only [resultOf, Option.elim_none]
    rw [events_record, hevents]
    simp [finished]
  | some e =>
    simp only [resultOf, Option.elim_some]
    rw [hevents]
    simp [finished]

theorem sourceBytes_askAll (source : String) (requests : List Request) :
    ((ofString source).askAll requests).2.cursor.sourceBytes = source.utf8ByteSize := by
  have hlength (cs : List Char) : Cursor.byteLength cs = (String.ofList cs).utf8ByteSize := by
    induction cs with
    | nil => rfl
    | cons c cs ih =>
      rw [Cursor.byteLength_cons, ih, String.ofList_cons, String.utf8ByteSize_append,
        String.utf8ByteSize_singleton]
  obtain ⟨k, hk⟩ := askAll_standsAt (ofString_standsAt source) requests
  rw [Cursor.sourceBytes, hk.bytes, hk.remaining, Cursor.boundary, ← Cursor.byteLength_append,
    List.take_append_drop, hlength, String.ofList_toList]

/-- **The log mirrors the items.** Whatever has been asked for, there is one event for each token
that was handed out, with its kind, its place and its text, and one for the error behind them, if
that has been reached. Collecting what is left then adds its beginning with the bytes of the whole
source, one event for each token that is left, also if they are dropped for an error, and then one
for that error, or for the end with the count of the tokens; after an error nothing is left. One
level up, the same is shown without the tokens. -/
theorem log_mirrors_items (source : String) (requests : List Request) :
    let answers := ((ofString source).askAll requests).1
    let left := ((ofString source).askAll requests).2
    let token (t : Token) := (Level.trace, "token",
      [("kind", t.kind.name), ("pos", t.start.text), ("value", t.text)])
    let failed (e : ScanError) := (Level.debug, "scan failed", [("error", e.message)])
    (∃ handed reached collected error,
      answers.filterMap id = itemsOf handed reached ∧
      left.drain.1 = itemsOf collected error ∧
      left.scan.1 = resultOf collected error ∧
      (reached ≠ none → collected = [] ∧ error = none) ∧
      (left.events .trace).map Event.shown =
        handed.map token ++ reached.toList.map failed ∧
      (left.scan.2.events .trace).map Event.shown =
        handed.map token ++ reached.toList.map failed ++
          (Level.debug, "scan started", [("bytes", toString source.utf8ByteSize)]) ::
            (collected.map token ++ error.elim
              [(Level.debug, "scan finished", [("tokens", toString collected.length)])]
              fun e => [failed e])) ∧
    ∀ s : Scanner, s.events .debug = (s.events .trace).filter (·.level ≠ .trace) := by
  intro answers left token failed
  obtain ⟨tokens, e, last, hrun⟩ := (ofString source).exists_run
  obtain ⟨collected, error, hleft, hitems⟩ := hrun.askAll requests
  obtain ⟨handed, reached, hanswers, hreached⟩ := itemsOf_eq_append hitems
  have hshown (ts : List Token) (e : Option ScanError) :
      ((itemsOf ts e).map eventOf).map Event.shown =
        ts.map token ++ e.toList.map failed := by
    rw [map_eventOf_itemsOf, List.map_append, List.map_map, List.map_map]
    rfl
  have hanswered : (left.events .trace).map Event.shown =
      handed.map token ++ reached.toList.map failed := by
    rw [← hshown, ← hanswers, askAll_events]
    rfl
  have hscanned : (left.scan.2.events .trace).map Event.shown = _ :=
    congrArg (List.map Event.shown) left.scan_events
  rw [List.map_append, hanswered, List.map_cons, List.map_append, hleft.drain, hleft.scan,
    hshown, sourceBytes_askAll] at hscanned
  refine ⟨⟨handed, reached, collected, error, hanswers, congrArg Prod.fst hleft.drain, hleft.scan,
    hreached, hanswered, hscanned.trans ?_⟩, events_debug⟩
  cases error with
  | none => simp [resultOf, finished, Event.shown, Event.level, Event.message, Event.fields]
  | some e => simp [resultOf, finished, Event.shown, Event.level, Event.message, Event.fields]

/-- Collecting after the error begins and ends with nothing in between. -/
example : (((ofString "a $").askAll [.next, .nextToken, .next]).2.scan.2.events .debug) =
    [.scanFailed ⟨.unknownCharacter '$', ⟨2, 1, 3⟩⟩, .scanStarted 3, .scanFinished 0] := by
  decide +kernel

end Scanner

end GoTokens
