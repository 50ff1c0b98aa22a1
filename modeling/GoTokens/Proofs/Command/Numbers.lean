import GoTokens.Proofs.Command.Listings
import GoTokens.Proofs.Lexeme.Meaning
import GoTokens.Proofs.Scanner.Tiling

/-!
Numbers in JSON listings. An integer is a number there, by its digits. A floating-point number is one
as long as it is finite, and whether it is can be told from its text: it is rounded to infinity from
`Binary64.overflowAt` on (`IsNearest.isFinite_iff`, `Reading.isDecimal`). JSON has no infinity, and
the value of such a token is null there (`scanFile_json_numbers`, `scanFile_json_null`).
-/

namespace GoTokens

theorem TokenValue.kind_eq_int {v : TokenValue} : v.kind = .int ↔ ∃ n, v = .int n := by
  cases v <;> simp [kind]

theorem TokenValue.kind_eq_float {v : TokenValue} : v.kind = .float ↔ ∃ x, v = .float x := by
  cases v <;> simp [kind]

/-- The text of a number, all of it, is a decimal with a fraction or an exponent, and stands for a
rational. -/
inductive IsDecimal : List Char → ℚ → Prop
  | parts {text whole : List Char} {fraction : Option (List Char)} {exponent : Option Exponent} :
      NumberAt text (.decimal whole fraction exponent) [] → ¬ (fraction = none ∧ exponent = none) →
      IsDecimal text (NumberShape.rational whole fraction exponent)

/-- The text of a number is that number, without what stands behind it. -/
theorem NumberAt.alone {cs rest : List Char} {shape : NumberShape} (h : NumberAt cs shape rest)
    (hne : shape.text ≠ []) : NumberAt shape.text shape [] := by
  obtain ⟨hshape, hcs⟩ := numberAt_iff.mp h
  rw [hcs] at hshape
  have hkept : NumberShape.atFront (shape.text ++ []) = shape :=
    NumberShape.atFront_kept hne hshape.symm fun d hd => by cases hd
  rw [List.append_nil] at hkept
  exact numberAt_iff.mpr ⟨hkept.symm, (List.append_nil _).symm⟩

/-- A floating-point token is the text of a decimal, and its value is the nearest to that. -/
theorem Lexeme.Means.isDecimal {c : Char} {cs : List Char} {x : Binary64} {n : Nat}
    (h : Means c cs (.float x) n) : ∃ q, IsDecimal ((c :: cs).take n) q ∧ x.IsNearest q := by
  generalize hvalue : TokenValue.float x = value at h
  cases h with
  | @number shape rest _ hc hnumber hvalid hdenotes hi =>
    subst hvalue
    obtain ⟨hshape, htext⟩ := numberAt_iff.mp hnumber
    have hne : shape.text ≠ [] := hshape ▸ NumberShape.atFront_text_ne_nil hc
    cases shape with
    | based radix letter digits => cases hdenotes
    | decimal whole fraction exponent =>
      simp only [NumberShape.Denotes] at hdenotes
      split at hdenotes
      · cases hdenotes
      · rename_i hplain
        obtain ⟨y, hy, hxy⟩ := hdenotes
        obtain rfl := TokenValue.float.inj hxy
        refine ⟨_, ?_, hy⟩
        rw [htext, List.take_left]
        exact .parts (hnumber.alone hne) hplain
  | word hc hrun => cases hvalue ▸ firstClass_ofWord _
  | imaginary hc hnumber hvalid hi => cases hvalue
  | quoted hc hsplit hpending => cases hvalue ▸ firstClass_quoted _ _
  | lineComment hc hcs hrun => cases hvalue
  | blockComment hc hcs hsplit hbody => cases hvalue
  | operator hline hblock hlongest => cases hvalue

theorem Reading.isDecimal {text : List Char} {tokens : List Token} {error : Option ScanError}
    (h : Reading .start text tokens error) {t : Token} (ht : t ∈ tokens) {x : Binary64}
    (hx : t.value = .float x) : ∃ q, IsDecimal (t.lexeme text) q ∧ x.IsNearest q := by
  obtain ⟨c, body, rest, hlexeme, hlex⟩ := h.lexeme_eq ht
  rw [hx] at hlex
  obtain ⟨q, hdecimal, hnear⟩ := (Lexeme.atFront_means hlex).isDecimal
  rw [← List.cons_append, List.take_left' (by rfl), ← hlexeme] at hdecimal
  exact ⟨q, hdecimal, hnear⟩

/-! ## Values in JSON -/

namespace Json

/-- The value under a name, the first if there are several. -/
def Value.member? (name : String) : Value → Option Value
  | .object members => members.lookup name.toList
  | _ => none

theorem Describes.member? {t : Token} {v : Value} (h : Describes t v) :
    ∃ value, v.member? "value" = some value ∧ Shows t.value value := by
  obtain ⟨value, hshows, rfl⟩ := h
  refine ⟨value, ?_, hshows⟩
  simp [Value.member?, List.lookup_cons]

theorem Shows.of_int {n : Nat} {value : Value} (h : Shows (.int n) value) :
    ∃ lexeme, value = .number lexeme := by
  cases h with
  | int => exact ⟨_, rfl⟩
  | text hint hfloat => exact absurd rfl hint

theorem Shows.of_float {x : Binary64} {value : Value} {q : ℚ} (h : Shows (.float x) value)
    (hx : x.IsNearest q) :
    (q < Binary64.overflowAt → ∃ lexeme, value = .number lexeme) ∧
      (Binary64.overflowAt ≤ q → value = .null) := by
  cases h with
  | @finite _ lexeme hfinite hnumber =>
    have hbelow := hx.isFinite_iff.mp hfinite
    exact ⟨fun _ => ⟨lexeme, rfl⟩, fun hbeyond => absurd hbelow hbeyond.not_gt⟩
  | notFinite hinfinite =>
    exact ⟨fun hbelow => absurd (hx.isFinite_iff.mpr hbelow) hinfinite, fun _ => rfl⟩
  | text hint hfloat => exact absurd rfl hfloat

end Json

namespace Command

/-- **Numbers in JSON.** In the JSON that is written of a file that scans, the value of an integer is
a number, and so is that of a floating-point token whose text stands for less than the point of
overflow. From there on the value is null. -/
theorem scanFile_json_numbers {w : Workspace} {path source : String} {tokens : List Token}
    (hread : w.readText path = .ok source) (hscan : GoTokens.scan source = .ok tokens)
    (configured : Settings) (format : Option OutputFormat) (noComments : Bool)
    (hjson : (configured.withRequests format noComments).format = .json) :
    let settings := configured.withRequests format noComments
    ∃ output events text objects,
      leaves w (scanFile settings path) = ((.ok (), ⟨output, events⟩), w) ∧
      output.toList = text ++ ['\n'] ∧ Json.decode? text = some (.array objects) ∧
      List.Forall₂ (fun t object =>
          (t.kind = .int → ∃ lexeme, object.member? "value" = some (.number lexeme)) ∧
          (t.kind = .float → ∃ q, IsDecimal (t.lexeme source.toList) q ∧
            (q < Binary64.overflowAt → ∃ lexeme, object.member? "value" = some (.number lexeme)) ∧
            (Binary64.overflowAt ≤ q → object.member? "value" = some .null)))
        (tokens.filter settings.keeps) objects := by
  intro settings
  let shown := tokens.filter settings.keeps
  obtain ⟨events, hleaves⟩ := leaves_scanFile_ok settings hread hscan
  rw [Listing.render, hjson] at hleaves
  obtain ⟨text, htext, hdecode⟩ := Json.decode_render shown
  refine ⟨_, events, text, _, hleaves, htext, hdecode, ?_⟩
  rw [List.forall₂_map_right_iff, List.forall₂_same]
  intro t ht
  obtain ⟨value, hmember, hshows⟩ := (Json.describes_ofToken t).member?
  rw [hmember]
  constructor
  · intro hkind
    obtain ⟨n, hn⟩ := TokenValue.kind_eq_int.mp hkind
    obtain ⟨lexeme, rfl⟩ := Json.Shows.of_int (hn ▸ hshows)
    exact ⟨lexeme, rfl⟩
  · intro hkind
    obtain ⟨x, hx⟩ := TokenValue.kind_eq_float.mp hkind
    obtain ⟨q, hdecimal, hnear⟩ := (Reading.of_scan hscan).isDecimal (List.mem_of_mem_filter ht) hx
    obtain ⟨hnumber, hnull⟩ := Json.Shows.of_float (hx ▸ hshows) hnear
    refine ⟨q, hdecimal, fun hbelow => ?_, fun hbeyond => congrArg some (hnull hbeyond)⟩
    obtain ⟨lexeme, rfl⟩ := hnumber hbelow
    exact ⟨lexeme, rfl⟩

/-- A file with an integer, a finite number and one that is rounded to infinity. -/
def numbersSource : Workspace := ⟨⟨[(["numbers"], .file "1 2.5 1e999".toUTF8)]⟩, []⟩

theorem scanFile_json_numbers_mixed :
    let tokens : List Token := [⟨.int 1, ⟨0, 1, 1⟩, ⟨1, 1, 2⟩⟩,
      ⟨.float ⟨0x4004000000000000⟩, ⟨2, 1, 3⟩, ⟨5, 1, 6⟩⟩,
      ⟨.float ⟨0x7FF0000000000000⟩, ⟨6, 1, 7⟩, ⟨11, 1, 12⟩⟩]
    numbersSource.readText "numbers" = .ok "1 2.5 1e999" ∧
    GoTokens.scan "1 2.5 1e999" = .ok tokens ∧
    ∃ output events text objects,
      leaves numbersSource (scanFile { format := .json } "numbers") =
        ((.ok (), ⟨output, events⟩), numbersSource) ∧
      output.toList = text ++ ['\n'] ∧ Json.decode? text = some (.array objects) ∧
      List.Forall₂ (fun t object =>
          (t.kind = .int → ∃ lexeme, object.member? "value" = some (.number lexeme)) ∧
          (t.kind = .float → ∃ q, IsDecimal (t.lexeme "1 2.5 1e999".toList) q ∧
            (q < Binary64.overflowAt → ∃ lexeme, object.member? "value" = some (.number lexeme)) ∧
            (Binary64.overflowAt ≤ q → object.member? "value" = some .null)))
        tokens objects := by
  intro tokens
  have hread : numbersSource.readText "numbers" = .ok "1 2.5 1e999" := by rfl
  have hscan : GoTokens.scan "1 2.5 1e999" = .ok tokens := by decide +kernel
  exact ⟨hread, hscan, scanFile_json_numbers hread hscan { format := .json } none false rfl⟩

/-- A file with a number that is rounded to infinity, and nothing else. -/
def infiniteSource : Workspace := ⟨⟨[(["infinite"], .file "1e999".toUTF8)]⟩, []⟩

/-- The value of a floating-point token need not be a number: it is null for an infinite one. -/
theorem scanFile_json_null :
    let t : Token := ⟨.float ⟨0x7FF0000000000000⟩, ⟨0, 1, 1⟩, ⟨5, 1, 6⟩⟩
    infiniteSource.readText "infinite" = .ok "1e999" ∧ GoTokens.scan "1e999" = .ok [t] ∧
    t.kind = .float ∧
    ∃ output events text object,
      leaves infiniteSource (scanFile { format := .json } "infinite") =
        ((.ok (), ⟨output, events⟩), infiniteSource) ∧
      output.toList = text ++ ['\n'] ∧ Json.decode? text = some (.array [object]) ∧
      object.member? "value" = some .null ∧
      ∀ lexeme, object.member? "value" ≠ some (.number lexeme) := by
  intro t
  have hread : infiniteSource.readText "infinite" = .ok "1e999" := by rfl
  have hscan : GoTokens.scan "1e999" = .ok [t] := by decide +kernel
  obtain ⟨events, hleaves⟩ := leaves_scanFile_ok { format := .json } hread hscan
  obtain ⟨text, htext, hdecode⟩ := Json.decode_render [t]
  obtain ⟨value, hmember, hshows⟩ := (Json.describes_ofToken t).member?
  have hinfinite : ¬ Binary64.IsFinite ⟨0x7FF0000000000000⟩ := by
    unfold Binary64.IsFinite
    decide +kernel
  have hnull : (Json.Record.value (Json.ofToken t)).member? "value" = some .null := by
    cases hshows with
    | finite hfinite hnumber => exact absurd hfinite hinfinite
    | notFinite _ => exact hmember
    | text hint hfloat => exact absurd rfl hfloat
  refine ⟨hread, hscan, rfl, _, events, text, _, hleaves, htext, hdecode, hnull, fun lexeme => ?_⟩
  rw [hnull]
  exact nofun

end Command

end GoTokens
