import GoTokens.Proofs.Scanner.Tiling

/-!
Two sources with blanks between them are scanned as each of them alone (`scan_join`). The
end of the first is replaced by a blank, which ends every lexeme but a line comment, and the
second begins anew at the place where it stands. A fault of the first is found all the same,
unless it is that the text has ended.
-/

namespace GoTokens

open Lookahead Text

/-- Whether a token is a line comment, which a line end alone can end. -/
def Token.IsLineComment (t : Token) (chars : List Char) : Prop :=
  t.kind = .comment ∧ ['/', '/'] <+: t.lexeme chars

instance (t : Token) (chars : List Char) : Decidable (t.IsLineComment chars) :=
  inferInstanceAs (Decidable (_ ∧ _))

/-- A token of a text as it is where the text begins at `origin`. -/
def Token.movedTo (t : Token) (origin : Position) : Token := t.mapPlaces (·.movedTo origin)

def ScanError.movedTo (e : ScanError) (origin : Position) : ScanError :=
  e.mapPlace (·.movedTo origin)

theorem Token.isLineComment_of_slashes {t : Token} {chars body : List Char} {c : Char} {n : Nat}
    (hlexeme : t.lexeme chars = c :: body) (hlex : Lexeme.atFront c body = .token t.value n)
    (hc : c = '/') (hbody : body.head? = some '/') : t.IsLineComment chars := by
  refine ⟨Lexeme.kind_of_slashes hlex hc hbody, ?_⟩
  cases body with
  | nil => cases hbody
  | cons d body =>
    cases hbody
    exact ⟨body, by rw [hlexeme, hc]; rfl⟩

namespace Reading

variable {p : Position} {text : List Char} {tokens : List Token} {error : Option ScanError}

/-- Where a text begins adds to the places of its items. -/
theorem movedTo (h : Reading .start text tokens error) (origin : Position) :
    Reading origin text (tokens.map (·.movedTo origin)) (error.map (·.movedTo origin)) :=
  h.relocated (f := (·.movedTo origin)) (Position.start_afterAll_movedTo origin)

/-- A text that is read to its end may go on with a blank, and what is read after that is read
after the text. Behind a line comment, the blank has to be a line end. -/
theorem join {before blanks more : List Char} {tokens' : List Token} {error' : Option ScanError}
    (h : Reading p text tokens none) (hp : p = Position.start.afterAll before)
    (hne : blanks ≠ []) (hblanks : Gap blanks)
    (hline : ∀ t ∈ tokens.getLast?, t.IsLineComment (before ++ text) →
      t.stop.offset = (before ++ text).length → blanks.head? = some '\n')
    (hmore : Reading (p.afterAll (text ++ blanks)) more tokens' error') :
    Reading p (text ++ (blanks ++ more)) (tokens ++ tokens') error' := by
  generalize herror : (none : Option ScanError) = error at h
  induction h generalizing before with
  | @blank p gap hgap =>
    rw [← List.append_assoc]
    exact hmore.behind_gap (hgap.append hblanks)
  | fault _ _ _ => cases herror
  | @token p gap body rest c value tokens error hgap hc hlex hrest ih =>
    subst herror
    have hsplit : before ++ (gap ++ c :: (body ++ rest)) =
        before ++ (gap ++ c :: body) ++ rest := by simp
    have hstart : p.afterAll gap = Position.start.afterAll (before ++ gap) := by
      rw [hp, ← Position.afterAll_append]
    have hstop : p.afterAll (gap ++ c :: body) =
        Position.start.afterAll (before ++ (gap ++ c :: body)) := by
      rw [hp, ← Position.afterAll_append]
    have hfollows : Follows (Lexeme.Ends c (body ++ rest)) rest (rest ++ (blanks ++ more)) := by
      refine .append_right rest fun hnil d hd => ?_
      obtain ⟨hblank, hfirst⟩ := hblanks.head? hne hd
      refine ⟨hblank, fun hslash hhead => ?_⟩
      -- There is nothing behind this token, so it is the last one.
      subst hnil
      obtain ⟨rfl, -⟩ := hrest.of_nil
      rw [List.append_nil] at hhead hlex
      have hlexeme : Token.lexeme ⟨value, p.afterAll gap, p.afterAll (gap ++ c :: body)⟩
          (before ++ (gap ++ c :: (body ++ []))) = c :: body := by
        rw [← List.append_assoc, ← List.cons_append]
        refine Token.lexeme_of_places [] hstart ?_
        rw [hstop, List.append_assoc]
      have hnewline := hline _ rfl
        (Token.isLineComment_of_slashes hlexeme hlex hslash hhead) (by rw [hstop]; simp)
      exact Option.some.inj (hfirst.symm.trans hnewline)
    have hlex' := Lexeme.atFront_kept hlex hfollows
    have hback := ih hstop (fun t ht hcomment hend => by
        refine hline t ?_ (hsplit ▸ hcomment) (hsplit ▸ hend)
        rw [List.getLast?_cons, Option.mem_def.mp ht]
        rfl)
      (by rwa [← Position.afterAll_append, ← List.append_assoc, List.append_assoc gap,
        List.cons_append]) rfl
    have hread := Reading.token hgap hc hlex' hback
    simpa only [List.append_assoc, List.cons_append] using hread

/-- An error stays when the text goes on with a blank, unless it is that the text has ended. -/
theorem append_of_fault {e : ScanError} {extra : List Char}
    (h : Reading p text tokens (some e)) (hfault : e.fault.isInside = true)
    (hextra : ∀ d, extra.head? = some d → isBlank d = true) :
    Reading p (text ++ extra) tokens (some e) := by
  generalize herror : some e = error at h
  induction h with
  | blank _ => cases herror
  | @fault p gap rest c fault n hgap hc hlex =>
    cases herror
    rw [List.append_assoc, List.cons_append]
    exact .fault hgap hc (Lexeme.atFront_fault_append hlex hfault hextra)
  | @token p gap body rest c value tokens error hgap hc hlex hrest ih =>
    subst herror
    have hfollows : Follows (Lexeme.Ends c (body ++ rest)) rest (rest ++ extra) := by
      refine .append_right rest fun hnil => ?_
      subst hnil
      cases hrest.of_nil.2
    have hread := Reading.token hgap hc (Lexeme.atFront_kept hlex hfollows) (ih rfl)
    simpa only [List.append_assoc, List.cons_append] using hread

end Reading

/-- **Sources may be joined by blanks.** If the first scans, its tokens come first, and then the
tokens of the second, or in the place of all of them its error, at the places that they have
behind the first and the blanks. If a line comment is the end of the first, the blanks have to
begin with a line end. A character that begins no lexeme and a number without a value are the
same error in the first alone and before the second. -/
theorem scan_join {a blanks b : String} (hne : blanks ≠ "")
    (hblanks : ∀ d ∈ blanks.toList, isBlank d = true) :
    let origin := Position.start.afterAll (a ++ blanks).toList
    (∀ tokens, scan a = .ok tokens →
      (∀ t ∈ tokens.getLast?, t.IsLineComment a.toList → t.stop.offset = a.length →
        blanks.toList.head? = some '\n') →
      (∀ tokens', scan b = .ok tokens' →
        scan (a ++ blanks ++ b) = .ok (tokens ++ tokens'.map (·.movedTo origin))) ∧
      ∀ e, scan b = .error e → scan (a ++ blanks ++ b) = .error (e.movedTo origin)) ∧
    ∀ e, scan a = .error e →
      ((∃ c, e.fault = .unknownCharacter c) ∨ ∃ text, e.fault = .malformedNumber text) →
      scan (a ++ blanks ++ b) = .error e := by
  intro origin
  have htext : (a ++ blanks ++ b).toList = a.toList ++ (blanks.toList ++ b.toList) := by
    simp only [String.toList_append, List.append_assoc]
  have horigin : origin = Position.start.afterAll (a.toList ++ blanks.toList) := by
    rw [← String.toList_append]
  have hsome : blanks.toList ≠ [] := by simpa using hne
  refine ⟨fun tokens ha hline => ?_, fun e ha hfault => ?_⟩
  · have hjoin {tokens' : List Token} {error' : Option ScanError}
        (hb : Reading .start b.toList tokens' error') :
        scan (a ++ blanks ++ b) =
          resultOf (tokens ++ tokens'.map (·.movedTo origin)) (error'.map (·.movedTo origin)) := by
      have hback := hb.movedTo origin
      rw [horigin] at hback
      have hstart : Position.start = Position.start.afterAll [] := rfl
      have hread := (Reading.of_scan ha).join hstart hsome hblanks hline hback
      rw [← htext, ← horigin] at hread
      exact hread.scan
    refine ⟨fun tokens' hb => hjoin (.of_scan hb), fun e hb => ?_⟩
    obtain ⟨tokens', hread⟩ := Reading.of_scan_error hb
    exact hjoin hread
  · have hinside : e.fault.isInside = true := by
      rcases hfault with ⟨c, hc⟩ | ⟨text, htext⟩
      · rw [hc]; rfl
      · rw [htext]; rfl
    obtain ⟨tokens, hread⟩ := Reading.of_scan_error ha
    have hblank : ∀ d, (blanks.toList ++ b.toList).head? = some d → isBlank d = true :=
      fun d hd => (Gap.head? hblanks hsome hd).1
    have hlonger := hread.append_of_fault hinside hblank
    rw [← htext] at hlonger
    exact hlonger.scan

theorem scan_join_behind_comment :
    scan ("f // g" ++ "\n " ++ "0x1F\nh") = .ok [⟨.ident "f", ⟨0, 1, 1⟩, ⟨1, 1, 2⟩⟩,
      ⟨.comment "// g", ⟨2, 1, 3⟩, ⟨6, 1, 7⟩⟩, ⟨.int 31, ⟨8, 2, 2⟩, ⟨12, 2, 6⟩⟩,
      ⟨.ident "h", ⟨13, 3, 1⟩, ⟨14, 3, 2⟩⟩] ∧
    scan ("f // g" ++ "\n " ++ "'h") = .error ⟨.unterminatedLiteral '\'', ⟨8, 2, 2⟩⟩ ∧
    scan ("1e" ++ "\n " ++ "5") = .error ⟨.malformedNumber "1e", ⟨0, 1, 1⟩⟩ := by
  have hblanks : ∀ d ∈ "\n ".toList, isBlank d = true :=
    List.all_eq_true.mp (by decide +kernel)
  have hcomment : scan "f // g" = .ok [⟨.ident "f", ⟨0, 1, 1⟩, ⟨1, 1, 2⟩⟩,
      ⟨.comment "// g", ⟨2, 1, 3⟩, ⟨6, 1, 7⟩⟩] := by decide +kernel
  have htokens : scan "0x1F\nh" = .ok [⟨.int 31, ⟨0, 1, 1⟩, ⟨4, 1, 5⟩⟩,
      ⟨.ident "h", ⟨5, 2, 1⟩, ⟨6, 2, 2⟩⟩] := by decide +kernel
  have hliteral : scan "'h" = .error ⟨.unterminatedLiteral '\'', ⟨0, 1, 1⟩⟩ := by decide +kernel
  have hnumber : scan "1e" = .error ⟨.malformedNumber "1e", ⟨0, 1, 1⟩⟩ := by decide +kernel
  have horigin : Position.start.afterAll ("f // g" ++ "\n ").toList = ⟨8, 2, 2⟩ := by
    decide +kernel
  have hjoin (b : String) :=
    (scan_join (b := b) (by decide) hblanks).1 _ hcomment fun _ _ _ _ => rfl
  have hnone := (scan_join (b := "5") (by decide) hblanks).2 _ hnumber (.inr ⟨_, rfl⟩)
  rw [horigin] at hjoin
  exact ⟨(hjoin _).1 _ htokens, (hjoin _).2 _ hliteral, hnone⟩

end GoTokens
