import MotuProxy.Model.Schema

/-! # The table, written out

The kernel is slow to read the code points of a text. `schemaTable` is the table with all of them
read, and what is decided about the table is decided about that.
-/

namespace MotuProxy

open Py

theorem Py.py_eq_map {s : String} {l : List Char} (h : s = String.ofList l) :
    py s = l.map Char.toNat := by
  rw [h, py, String.toList_ofList]

namespace Schema

-- The table is one term of some ten thousand code points.
set_option maxRecDepth 20000 in
def schemaTable : { table : List PathSchema // SCHEMA = table } := ⟨_, by
  simp (disch := exact rfl) only [SCHEMA, row, rangeRow, enumRow, py_eq_map, List.map_cons,
    List.map_nil, Char.reduceToNat]
  rfl⟩

/-- `find_path_schema`, over the table as it is written out. -/
theorem findPathSchema_eq (path : Str) : findPathSchema path =
    (relativeDatastorePath path).map fun relative => relative.bind fun relative =>
      (bestMatch (requestedSegments relative) (schemaTable.1.filter fun entry =>
        entry.segments.length = (requestedSegments relative).length) none).map (·.2) := by
  rw [← schemaTable.2, findPathSchema]
  congr 1
  funext relative
  cases relative <;> rfl

theorem findPathSchema_fader : findPathSchema (py "/datastore/mix/chan/0/matrix/fader") =
    .ok (some (rangeRow "mix/chan/<index>/matrix/fader" "real" .rw 0 4)) := by
  rw [findPathSchema_eq]
  decide +kernel

end Schema

end MotuProxy
