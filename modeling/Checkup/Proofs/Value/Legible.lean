import Checkup.Proofs.Json.Strings
import Checkup.Proofs.Steps
import Checkup.Proofs.Value.Same

/-!
# Legible values

A value is legible if each of its texts is read back as it is written. The keys of its tables do not
count here.
-/

namespace Checkup

namespace Value

/-- In the texts of the value no two halves of a pair stand next to each other. -/
inductive Legible : Value → Prop where
  | null : Legible .null
  | bool (b : Bool) : Legible (.bool b)
  | int (n : Int) : Legible (.int n)
  | float (x : Float) : Legible (.float x)
  | moment (written : String) : Legible (.moment written)
  | str {text : CodeText} (apart : Json.HalvesApart text.points) : Legible (.str text)
  | list {items : List Value} (each : ∀ item ∈ items, Legible item) : Legible (.list items)
  | table {entries : Table} (each : ∀ entry ∈ entries, Legible entry.2) : Legible (.table entries)

theorem legible_ofString (s : String) : Legible (.str s) := .str (Json.halvesApart_ofString s)

theorem legible_list_iff {items : List Value} :
    Legible (.list items) ↔ ∀ item ∈ items, item.Legible := by
  refine ⟨?_, .list⟩
  rintro ⟨⟩
  assumption

end Value

namespace Table

/-- The values in the table are legible. -/
def Legible (table : Table) : Prop := ∀ entry ∈ table, entry.2.Legible

variable {table : Table} {key : CodeText} {value : Value}

theorem legible_nil : Legible [] := List.forall_mem_nil _

theorem legible_table_iff : Value.Legible (.table table) ↔ table.Legible := by
  refine ⟨?_, .table⟩
  rintro ⟨⟩
  assumption

theorem Legible.of_get? (legible : table.Legible) (get : table.get? key = some value) :
    value.Legible :=
  legible (key, value) (mem_of_get? get)

theorem Legible.put (legible : table.Legible) (key : CodeText) (fine : value.Legible) :
    (table.put key value).Legible := by
  induction table with
  | nil => exact List.forall_mem_singleton.mpr fine
  | cons head rest ih =>
    obtain ⟨first, later⟩ := List.forall_mem_cons.mp legible
    unfold Table.put
    split
    · exact List.forall_mem_cons.mpr ⟨fine, later⟩
    · exact List.forall_mem_cons.mpr ⟨first, ih later⟩

end Table

end Checkup
