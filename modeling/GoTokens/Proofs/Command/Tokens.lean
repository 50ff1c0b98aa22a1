import GoTokens.Command.Tokens
import GoTokens.Proofs.Command.Session
import GoTokens.Proofs.Listing.Table
import GoTokens.Proofs.Scanner.Comments

/-!
The two commands that list the tokens of a file, against each other. Both write the same
table of a file that scans. If there is an error in it, both report that error, but one has
written nothing and the other the rows before it (`scanFile_streamFile`). A listing without
comments is the same for a file with blanks in the place of its comments
(`scanFile_blankComments`).
-/

namespace GoTokens

namespace Listing

def table (settings : Settings) (tokens : List Token) : String :=
  Table.header ++ String.join ((tokens.filter settings.keeps).map (Table.row settings.position))

theorem table_render (settings : Settings) (tokens : List Token) :
    Table.render settings.position (tokens.filter settings.keeps) = table settings tokens :=
  Table.render_eq _ _

theorem streamAfter_none {settings : Settings} {text : String} {rows : Nat} {s s' : Scanner}
    (h : s.next = (none, s')) : streamAfter settings text rows s = (text, rows, none, s') := by
  rw [streamAfter]
  split <;> simp_all

theorem streamAfter_error {settings : Settings} {text : String} {rows : Nat} {s s' : Scanner}
    {e : ScanError} (h : s.next = (some (.error e), s')) :
    streamAfter settings text rows s = (text, rows, some e, s') := by
  rw [streamAfter]
  split <;> simp_all

theorem streamAfter_token {settings : Settings} {text : String} {rows : Nat} {s s' : Scanner}
    {t : Token} (h : s.next = (some (.ok t), s')) :
    streamAfter settings text rows s =
      if settings.keeps t then
        streamAfter settings (text ++ Table.row settings.position t) (rows + 1) s'
      else streamAfter settings text rows s' := by
  rw [streamAfter]
  split <;> simp_all

/-- Row by row, the kept tokens of a run are written, up to its end or its error. -/
theorem streamAfter_run {s last : Scanner} {tokens : List Token} {error : Option ScanError}
    (h : s.Run tokens error last) (settings : Settings) (text : String) (rows : Nat) :
    streamAfter settings text rows s =
      (text ++ String.join ((tokens.filter settings.keeps).map (Table.row settings.position)),
        rows + (tokens.filter settings.keeps).length, error, last) := by
  induction h generalizing text rows with
  | ended h => simp [streamAfter_none h]
  | failed h => simp [streamAfter_error h]
  | @token s s' last t tokens error h _ ih =>
    rw [streamAfter_token h]
    cases hkeep : settings.keeps t with
    | true =>
      rw [if_pos rfl, ih, List.filter_cons_of_pos hkeep, List.map_cons, String.join_cons,
        String.append_assoc, List.length_cons, Nat.add_assoc, Nat.add_comm 1]
    | false =>
      rw [if_neg Bool.false_ne_true, ih, List.filter_cons_of_neg (by simp [hkeep])]

theorem stream_run {s last : Scanner} {tokens : List Token} {error : Option ScanError}
    (h : s.Run tokens error last) (settings : Settings) :
    stream settings s =
      (table settings tokens, (tokens.filter settings.keeps).length, error, last) := by
  rw [stream, streamAfter_run h, Nat.zero_add, table]

end Listing

/-! ## Commands -/

namespace Command

variable {settings : Settings} {path source : String} {w : Workspace} {t : Transcript}
  {tokens : List Token} {error : Option ScanError} {last : Scanner}

def ending (error : Option ScanError) : Except Failure Unit :=
  error.elim (.ok ()) fun e => .error (.scan e)

theorem on_readText (path : String) :
    Session.on (Session.onFiles (FileStore.readText path)) t w = ((.ok (w.readText path), t), w) :=
  Session.on_onFiles _

theorem on_readSource (h : w.readText path = .ok source) :
    Session.on (readSource path) t w =
      ((.ok source, ⟨t.output, t.events ++ [.sourceRead path source.utf8ByteSize]⟩), w) := by
  have hfile := on_readText (t := t) (w := w) path
  rw [h] at hfile
  rw [readSource, Session.on_bind_ok _ hfile, Session.on_bind_ok _ (Session.on_orFail_ok _ _),
    Session.on_bind_ok _ (Session.on_report _), Session.on_pure]

/-- Listed at once, a text with an error in it has no output. -/
theorem on_listAll (h : (Scanner.ofString source).Run tokens error last) :
    ∃ events, Session.on (listAll settings source) t w = ((ending error, ⟨t.output ++
      error.elim (Listing.render settings (tokens.filter settings.keeps)) fun _ => "", events⟩),
      w) := by
  rw [listAll]
  match hscan : (Scanner.ofString source).scan with
  | (result, scanner) =>
    have hresult : result = resultOf tokens error := by rw [← h.scan, hscan]
    subst hresult
    simp only
    rw [Session.on_bind_ok _ (Session.on_report _)]
    cases error with
    | some e =>
      simp only [resultOf, Option.elim_some, String.append_empty]
      rw [Session.on_throw]
      exact ⟨_, rfl⟩
    | none =>
      simp only [resultOf, Option.elim_none]
      rw [Session.on_bind_ok _ (Session.on_report _), Session.on_print]
      exact ⟨_, rfl⟩

/-- Listed row by row, a text has its rows as output, whether or not an error ends them. -/
theorem on_listRows (h : (Scanner.ofString source).Run tokens error last) :
    ∃ events, Session.on (listRows settings source) t w =
      ((ending error, ⟨t.output ++ Listing.table settings tokens, events⟩), w) := by
  rw [listRows, Listing.stream_run h]
  simp only
  rw [Session.on_bind_ok _ (Session.on_print _), Session.on_bind_ok _ (Session.on_report _)]
  cases error with
  | some e => exact ⟨_, rfl⟩
  | none => exact ⟨_, rfl⟩

/-- What a run leaves in a workspace, from its beginning. -/
abbrev leaves (w : Workspace) (s : Session (StateM Workspace) Unit) :
    (Except Failure Unit × Transcript) × Workspace := (Session.outcome s).run w

theorem leaves_scanFile (settings : Settings) (hread : w.readText path = .ok source)
    (h : (Scanner.ofString source).Run tokens error last) :
    ∃ events, leaves w (scanFile settings path) = ((ending error,
      ⟨error.elim (Listing.render settings (tokens.filter settings.keeps)) fun _ => "", events⟩),
      w) := by
  rw [leaves, Session.outcome_run, scanFile, Session.on_bind_ok _ (on_readSource hread)]
  obtain ⟨events, hlist⟩ := on_listAll h
  exact ⟨events, hlist.trans (by rw [Transcript.empty, String.empty_append])⟩

theorem leaves_scanFile_ok (settings : Settings) (hread : w.readText path = .ok source)
    (hscan : GoTokens.scan source = .ok tokens) :
    ∃ events, leaves w (scanFile settings path) =
      ((.ok (), ⟨Listing.render settings (tokens.filter settings.keeps), events⟩), w) := by
  obtain ⟨last, hrun⟩ :=
    (Reading.of_scan hscan).run (s := Scanner.ofString source) rfl rfl rfl
  exact leaves_scanFile settings hread hrun

theorem leaves_streamFile (settings : Settings) (hread : w.readText path = .ok source)
    (h : (Scanner.ofString source).Run tokens error last) :
    ∃ events, leaves w (streamFile settings path) =
      ((ending error, ⟨Listing.table settings tokens, events⟩), w) := by
  rw [leaves, Session.outcome_run, streamFile, Session.on_bind_ok _ (on_readSource hread)]
  obtain ⟨events, hlist⟩ := on_listRows h
  exact ⟨events, hlist.trans (by rw [Transcript.empty, String.empty_append])⟩

/-- **Listing at once and row by row agree.** If a file scans, both commands succeed and write
the same table, byte for byte. If its tokens are followed by an error, both fail with that
error; the one has written nothing, in either format, and the other the header and the rows of
the tokens that are kept. -/
theorem scanFile_streamFile (hread : w.readText path = .ok source) (configured : Settings)
    (noComments : Bool) :
    let settings (format : Option OutputFormat) := configured.withRequests format noComments
    let scanned (format : Option OutputFormat) := leaves w (scanFile (settings format) path)
    let streamed := leaves w (streamFile (settings none) path)
    let table (tokens : List Token) := Table.header ++ String.join
      ((tokens.filter (settings none).keeps).map (Table.row configured.position))
    (∀ (tokens : List Token) (format : Option OutputFormat),
      GoTokens.scan source = .ok tokens → (settings format).format = .table →
        ∃ events events', scanned format = ((.ok (), ⟨table tokens, events⟩), w) ∧
          streamed = ((.ok (), ⟨table tokens, events'⟩), w)) ∧
    ∀ (tokens : List Token) (error : ScanError),
      (Scanner.ofString source).drain.1 = tokens.map .ok ++ [.error error] →
        (∀ format, ∃ events, scanned format = ((.error (.scan error), ⟨"", events⟩), w)) ∧
        ∃ events, streamed = ((.error (.scan error), ⟨table tokens, events⟩), w) := by
  intro settings scanned streamed table
  obtain ⟨tokens, error, last, hrun⟩ := (Scanner.ofString source).exists_run
  have hstreamed := leaves_streamFile (settings none) hread hrun
  have hscanned (format : Option OutputFormat) := leaves_scanFile (settings format) hread hrun
  refine ⟨fun found format hscan htable => ?_, fun found e hdrain => ?_⟩
  · rw [GoTokens.scan, hrun.scan] at hscan
    cases error with
    | some e => cases hscan
    | none =>
      cases hscan
      obtain ⟨events, hrows⟩ := hstreamed
      obtain ⟨events', hall⟩ := hscanned format
      refine ⟨events', events, ?_, hrows⟩
      rw [Option.elim_none, Listing.render, htable] at hall
      exact hall.trans (by rw [Listing.table_render]; rfl)
  · rw [hrun.drain] at hdrain
    have hitems : itemsOf tokens error = itemsOf found (some e) := hdrain
    obtain ⟨rfl, rfl⟩ := itemsOf_inj hitems
    exact ⟨hscanned, hstreamed⟩

/-- A file that scans and one with an error. -/
def twoSources : Workspace :=
  ⟨⟨[(["good"], .file "a // b".toUTF8), (["bad"], .file "a $".toUTF8)]⟩, []⟩

theorem scanFile_streamFile_twoSources :
    (∃ output events events',
      leaves twoSources (scanFile { comments := false } "good") =
          ((.ok (), ⟨output, events⟩), twoSources) ∧
        leaves twoSources (streamFile { comments := false } "good") =
          ((.ok (), ⟨output, events'⟩), twoSources)) ∧
    ∃ error output events events',
      leaves twoSources (scanFile { format := .json, comments := false } "bad") =
          ((.error (.scan error), ⟨"", events⟩), twoSources) ∧
        leaves twoSources (streamFile { comments := false } "bad") =
          ((.error (.scan error), ⟨output, events'⟩), twoSources) := by
  have hgood : twoSources.readText "good" = .ok "a // b" := by rfl
  have hbad : twoSources.readText "bad" = .ok "a $" := by rfl
  let a : Token := ⟨.ident "a", ⟨0, 1, 1⟩, ⟨1, 1, 2⟩⟩
  have hscan : GoTokens.scan "a // b" = .ok [a, ⟨.comment "// b", ⟨2, 1, 3⟩, ⟨6, 1, 7⟩⟩] := by
    decide +kernel
  have hdrain : (Scanner.ofString "a $").drain.1 =
      [a].map .ok ++ [.error ⟨.unknownCharacter '$', ⟨2, 1, 3⟩⟩] := by decide +kernel
  obtain ⟨events, events', hall, hrows⟩ :=
    (scanFile_streamFile hgood {} true).1 _ none hscan rfl
  obtain ⟨hnothing, laterEvents', hpart⟩ := (scanFile_streamFile hbad {} true).2 _ _ hdrain
  obtain ⟨laterEvents, hnone⟩ := hnothing (some .json)
  exact ⟨⟨_, events, events', hall, hrows⟩, _, _, laterEvents, laterEvents', hnone, hpart⟩

/-! ## Comments -/

theorem leaves_scanFile_noComments (configured : Settings) (format : Option OutputFormat)
    (hread : w.readText path = .ok source) (hscan : GoTokens.scan source = .ok tokens) :
    ∃ events, leaves w (scanFile (configured.withRequests format true) path) = ((.ok (),
      ⟨Listing.render (configured.withRequests format true)
        (tokens.filter (·.kind != .comment)), events⟩), w) := by
  have hkeeps : (configured.withRequests format true).keeps = (·.kind != .comment) := by
    funext t
    simp [Settings.keeps, Settings.withRequests]
  obtain ⟨events, hleaves⟩ := leaves_scanFile_ok (configured.withRequests format true) hread hscan
  rw [hkeeps] at hleaves
  exact ⟨events, hleaves⟩

/-- **Comments are blanks.** If a source scans, then with a space for each character of its
comments, line ends apart, it scans to its other tokens, with the same values and places. A
listing without comments is the same, byte for byte, for files with the one and the other. -/
theorem scanFile_blankComments {source : String} {tokens : List Token}
    (hscan : GoTokens.scan source = .ok tokens) :
    let plain := String.ofList (blankComments tokens 0 source.toList)
    GoTokens.scan plain = .ok (tokens.filter (·.kind != .comment)) ∧
    ∀ (configured : Settings) (format : Option OutputFormat) (w w' : Workspace)
      (path path' : String),
      w.readText path = .ok source → w'.readText path' = .ok plain →
      let settings := configured.withRequests format true
      ∃ output events events', leaves w (scanFile settings path) = ((.ok (), ⟨output, events⟩), w) ∧
        leaves w' (scanFile settings path') = ((.ok (), ⟨output, events'⟩), w') := by
  intro plain
  have hblanked : Reading .start plain.toList (tokens.filter (·.kind != .comment)) none := by
    rw [String.toList_ofList]
    exact (Reading.of_scan hscan).blankComments
  have hplain : GoTokens.scan plain = .ok (tokens.filter (·.kind != .comment)) := hblanked.scan
  refine ⟨hplain, fun configured format w w' path path' hread hread' => ?_⟩
  obtain ⟨events, hleaves⟩ := leaves_scanFile_noComments configured format hread hscan
  obtain ⟨events', hleaves'⟩ := leaves_scanFile_noComments configured format hread' hplain
  rw [List.filter_filter] at hleaves'
  simp only [Bool.and_self] at hleaves'
  exact ⟨_, events, events', hleaves, hleaves'⟩

/-- A file with comments, and the same with blanks in their place. -/
def commentedAndPlain : Workspace :=
  ⟨⟨[(["commented"], .file "a/*\n*/'/'// b".toUTF8),
    (["plain"], .file "a  \n  '/'    ".toUTF8)]⟩, []⟩

theorem scanFile_blankComments_between :
    GoTokens.scan "a  \n  '/'    " = .ok [⟨.ident "a", ⟨0, 1, 1⟩, ⟨1, 1, 2⟩⟩,
      ⟨.byte "'/'", ⟨6, 2, 3⟩, ⟨9, 2, 6⟩⟩] ∧
    ∃ output events events',
      leaves commentedAndPlain (scanFile { format := .json, comments := false } "commented") =
          ((.ok (), ⟨output, events⟩), commentedAndPlain) ∧
        leaves commentedAndPlain (scanFile { format := .json, comments := false } "plain") =
          ((.ok (), ⟨output, events'⟩), commentedAndPlain) := by
  let tokens : List Token := [⟨.ident "a", ⟨0, 1, 1⟩, ⟨1, 1, 2⟩⟩,
    ⟨.comment "/*\\n*/", ⟨1, 1, 2⟩, ⟨6, 2, 3⟩⟩, ⟨.byte "'/'", ⟨6, 2, 3⟩, ⟨9, 2, 6⟩⟩,
    ⟨.comment "// b", ⟨9, 2, 6⟩, ⟨13, 2, 10⟩⟩]
  have hscan : GoTokens.scan "a/*\n*/'/'// b" = .ok tokens := by decide +kernel
  have hplain : String.ofList (blankComments tokens 0 "a/*\n*/'/'// b".toList) =
      "a  \n  '/'    " := by decide +kernel
  have hcommented : commentedAndPlain.readText "commented" = .ok "a/*\n*/'/'// b" := by rfl
  have hread : commentedAndPlain.readText "plain" = .ok "a  \n  '/'    " := by rfl
  obtain ⟨hfiltered, hlistings⟩ := scanFile_blankComments hscan
  rw [hplain] at hfiltered hlistings
  exact ⟨hfiltered, hlistings {} (some .json) _ _ _ _ hcommented hread⟩

end Command

end GoTokens
