import GoTokens.Configuration
import GoTokens.Proofs.Toml.Document

/-!
Settings are written as a table with an assignment for each of them (`write_eq`), and so they are
read back (`read?_write`).
-/

namespace GoTokens

theorem OutputFormat.ofName?_name (format : OutputFormat) : ofName? format.name = some format := by
  cases format <;> rfl

theorem OutputFormat.name_plain (format : OutputFormat) :
    format.name.toList ≠ [] ∧ ∀ c ∈ format.name.toList, Toml.isPlain c = true := by
  rw [← List.all_eq_true]
  cases format <;> decide +kernel

theorem PositionStyle.ofName?_name (style : PositionStyle) : ofName? style.name = some style := by
  cases style <;> rfl

theorem PositionStyle.name_plain (style : PositionStyle) :
    style.name.toList ≠ [] ∧ ∀ c ∈ style.name.toList, Toml.isPlain c = true := by
  rw [← List.all_eq_true]
  cases style <;> decide +kernel

namespace Configuration

open Toml (Assignment IsBareKey)

def assignments (s : Settings) : List Assignment :=
  [.ofString "format" s.format.name (.of_all (by decide +kernel)) s.format.name_plain.1
      s.format.name_plain.2,
    .ofString "position" s.position.name (.of_all (by decide +kernel)) s.position.name_plain.1
      s.position.name_plain.2,
    .ofBoolean "comments" s.comments (.of_all (by decide +kernel))]

theorem write_eq (s : Settings) :
    write s = String.ofList (Toml.tableText "output".toList (assignments s)) := by
  have hheader : "[output]\nformat = \"".toList = '[' :: ("output".toList ++ ']' :: '\n' ::
      ("format".toList ++ [' ', '=', ' ', '"'])) := by decide +kernel
  have hposition : "\"\nposition = \"".toList =
      '"' :: '\n' :: ("position".toList ++ [' ', '=', ' ', '"']) := by decide +kernel
  have hcomments : "\"\ncomments = ".toList =
      '"' :: '\n' :: ("comments".toList ++ [' ', '=', ' ']) := by decide +kernel
  have hend : "\n".toList = ['\n'] := rfl
  refine String.toList_inj.mp ?_
  unfold write
  simp only [String.toList_append, hheader, hposition, hcomments, hend, Toml.tableText,
    assignments, Assignment.ofString, Assignment.ofBoolean, Assignment.line, String.toList_ofList,
    List.flatMap_cons, List.flatMap_nil, List.append_nil, List.append_assoc, List.cons_append,
    List.nil_append]

theorem read?_write (s : Settings) : read? (write s) = some s := by
  have hname : IsBareKey "output".toList := .of_all (by decide +kernel)
  have hkeys : (((assignments s).map Assignment.entry).map Prod.fst).Nodup := by simp [assignments]
  have hparse := Toml.parse?_tableText hname (assignments s) hkeys
  rw [String.ofList_toList] at hparse
  rw [read?, write_eq, hparse]
  simp [assignments, ofEntries?, ofOutput?, settings?, orDefault, format?, position?, choice?,
    boolean?, List.lookup_cons, OutputFormat.ofName?_name, PositionStyle.ofName?_name]

end Configuration

end GoTokens
