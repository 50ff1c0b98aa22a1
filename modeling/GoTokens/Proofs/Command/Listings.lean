import GoTokens.Proofs.Command.Tokens
import GoTokens.Proofs.Lexeme.Text
import GoTokens.Proofs.Listing.Json

/-!
What can be read back from the listing of a file that scans. A table is a header and a row for each
token that is shown, and the texts of a row are those of its token (`scanFile_table`). As JSON, the
listing is an array with an object for each of these tokens (`scanFile_json`).
-/

namespace GoTokens

theorem Scanner.notMem_text_next {s : Scanner} {t : Token} (h : s.next.1 = some (.ok t)) :
    '\n' ∉ t.text.toList := by
  have hnext : s.next = (some (.ok t), s.next.2) := Prod.ext h rfl
  obtain ⟨c, cs, n, -, hlex, -⟩ := next_eq_token hnext
  exact Lexeme.notMem_text hlex

theorem Reading.notMem_text {p : Position} {text : List Char} {tokens : List Token}
    {error : Option ScanError} (h : Reading p text tokens error) {t : Token} (ht : t ∈ tokens) :
    '\n' ∉ t.text.toList := by
  obtain ⟨before, c, body, rest, -, -, hlex, -⟩ := h.lexeme_of_mem ht
  exact Lexeme.notMem_text hlex

namespace Command

/-- **Tables can be read back.** No token that a scanner hands out has a line end in its text. The
table of a file that scans has one line end behind the header and one behind each row, and from the
rows are read the position, the kind and the text of each token that is shown, in order, whatever
other characters are in them and however wide they are. -/
theorem scanFile_table :
    (∀ (s : Scanner) (t : Token), s.next.1 = some (.ok t) → '\n' ∉ t.text.toList) ∧
    ∀ (w : Workspace) (path source : String) (tokens : List Token) (configured : Settings)
      (format : Option OutputFormat) (noComments : Bool),
      w.readText path = .ok source → GoTokens.scan source = .ok tokens →
      let settings := configured.withRequests format noComments
      let shown := tokens.filter settings.keeps
      settings.format = .table →
        ∃ output events rows,
          leaves w (scanFile settings path) = ((.ok (), ⟨output, events⟩), w) ∧
          output.toList.count '\n' = 1 + shown.length ∧
          output.toList.splitOn '\n' =
            "Position        Type            Value".toList :: (rows ++ [[]]) ∧
          rows.map Table.readRow = shown.map fun t =>
            ⟨configured.position.text t.start, t.kind.name, t.text⟩ := by
  refine ⟨fun s t h => Scanner.notMem_text_next h, ?_⟩
  intro w path source tokens configured format noComments hread hscan settings shown htable
  obtain ⟨events, hleaves⟩ := leaves_scanFile_ok settings hread hscan
  rw [Listing.render, htable] at hleaves
  let rows := shown.map fun t => (Table.Cells.of settings.position t).line
  have hlines : ∀ line ∈ Table.Cells.line ⟨"Position", "Type", "Value"⟩ :: rows,
      '\n' ∉ line := by
    intro line hline
    obtain rfl | hline := List.mem_cons.mp hline
    · decide
    · obtain ⟨t, ht, rfl⟩ := List.mem_map.mp hline
      have hmem : t ∈ tokens := List.mem_of_mem_filter ht
      exact Table.Cells.notMem_line_of _ ((Reading.of_scan hscan).notMem_text hmem)
  refine ⟨_, events, rows, hleaves, ?_, ?_, ?_⟩
  · rw [Table.toList_render, Table.count_lines hlines, List.length_cons, List.length_map]
    exact Nat.add_comm _ _
  · rw [Table.toList_render, Table.splitOn_lines hlines, List.cons_append]
    congr 1
  · rw [List.map_map]
    exact List.map_congr_left fun t _ => Table.Cells.readRow_line (Table.Cells.fits_of _ t)

/-- A file with a literal that has blanks in it, and a comment behind it. -/
def spacedSource : Workspace := ⟨⟨[(["spaced"], .file "\"a \t\nb\" // c".toUTF8)]⟩, []⟩

theorem scanFile_table_spaced :
    let literal : Token := ⟨.string "\"a \t\\nb\"", ⟨0, 1, 1⟩, ⟨7, 2, 3⟩⟩
    let s := Scanner.ofString "\"a \t\nb\" // c"
    s.next.1 = some (.ok literal) ∧ '\n' ∉ literal.text.toList ∧
    spacedSource.readText "spaced" = .ok "\"a \t\nb\" // c" ∧
    GoTokens.scan "\"a \t\nb\" // c" =
      .ok [literal, ⟨.comment "// c", ⟨8, 2, 4⟩, ⟨12, 2, 8⟩⟩] ∧
    ∃ (output : String) (events : List Event) (rows : List (List Char)),
      leaves spacedSource (scanFile { position := .offsetLineColumn, comments := false } "spaced") =
        ((.ok (), ⟨output, events⟩), spacedSource) ∧
      output.toList.count '\n' = 2 ∧
      rows.map Table.readRow = [⟨"0:1:1", "STRING", "\"a \t\\nb\""⟩] := by
  intro literal s
  have hnext : s.next.1 = some (.ok literal) := by decide +kernel
  have hread : spacedSource.readText "spaced" = .ok "\"a \t\nb\" // c" := by rfl
  have hscan : GoTokens.scan "\"a \t\nb\" // c" =
      .ok [literal, ⟨.comment "// c", ⟨8, 2, 4⟩, ⟨12, 2, 8⟩⟩] := by decide +kernel
  obtain ⟨output, events, rows, hleaves, hcount, -, hrows⟩ := scanFile_table.2 _ _ _ _
    { position := .offsetLineColumn } none true hread hscan rfl
  exact ⟨hnext, scanFile_table.1 s literal hnext, hread, hscan, output, events, rows, hleaves,
    hcount, hrows.trans (by decide +kernel)⟩

/-- **JSON can be read back.** What is written as JSON of a file that scans is one text and a line
end, and the text is decoded to an array with an object for each token that is shown, in order,
which describes that token. The grammar gives the text no other value. -/
theorem scanFile_json {w : Workspace} {path source : String} {tokens : List Token}
    (hread : w.readText path = .ok source) (hscan : GoTokens.scan source = .ok tokens)
    (configured : Settings) (format : Option OutputFormat) (noComments : Bool)
    (hjson : (configured.withRequests format noComments).format = .json) :
    let settings := configured.withRequests format noComments
    ∃ output events text objects,
      leaves w (scanFile settings path) = ((.ok (), ⟨output, events⟩), w) ∧
      output.toList = text ++ ['\n'] ∧
      Json.IsText (.array objects) text ∧ Json.decode? text = some (.array objects) ∧
      (∀ v, Json.IsText v text → v = .array objects) ∧
      List.Forall₂ Json.Describes (tokens.filter settings.keeps) objects := by
  intro settings
  let shown := tokens.filter settings.keeps
  obtain ⟨events, hleaves⟩ := leaves_scanFile_ok settings hread hscan
  rw [Listing.render, hjson] at hleaves
  obtain ⟨text, htext, hdecode⟩ := Json.decode_render shown
  have hvalue := Json.decode?_eq_some.mp hdecode
  refine ⟨_, events, text, _, hleaves, htext, hvalue, hdecode, fun v hv => hv.unique hvalue, ?_⟩
  rw [List.forall₂_map_right_iff, List.forall₂_same]
  exact fun t _ => Json.describes_ofToken t

/-- A file with values that are shown in different ways: a literal with a line end in it, an integer
and a number that is infinite. -/
def valuesSource : Workspace := ⟨⟨[(["values"], .file "`\n` 1 1e999".toUTF8)]⟩, []⟩

theorem scanFile_json_values :
    let tokens : List Token := [⟨.string "`\\n`", ⟨0, 1, 1⟩, ⟨3, 2, 2⟩⟩,
      ⟨.int 1, ⟨4, 2, 3⟩, ⟨5, 2, 4⟩⟩, ⟨.float ⟨0x7FF0000000000000⟩, ⟨6, 2, 5⟩, ⟨11, 2, 10⟩⟩]
    valuesSource.readText "values" = .ok "`\n` 1 1e999" ∧
    GoTokens.scan "`\n` 1 1e999" = .ok tokens ∧
    ∃ output events text objects,
      leaves valuesSource (scanFile { format := .json } "values") =
        ((.ok (), ⟨output, events⟩), valuesSource) ∧
      output.toList = text ++ ['\n'] ∧ Json.decode? text = some (.array objects) ∧
      List.Forall₂ Json.Describes tokens objects := by
  intro tokens
  have hread : valuesSource.readText "values" = .ok "`\n` 1 1e999" := by rfl
  have hscan : GoTokens.scan "`\n` 1 1e999" = .ok tokens := by decide +kernel
  obtain ⟨output, events, text, objects, hleaves, houtput, -, hdecode, -, hobjects⟩ :=
    scanFile_json hread hscan { format := .json } none false rfl
  exact ⟨hread, hscan, output, events, text, objects, hleaves, houtput, hdecode, hobjects⟩

end Command

end GoTokens
