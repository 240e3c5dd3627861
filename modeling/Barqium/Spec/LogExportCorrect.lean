import Barqium.Native.ListPages
import Barqium.ForStd.Csv
import Mathlib.Data.List.Infix

/-!
# The export of the audit log

A value of an entry is put in quotes if it has a comma, a quote or a line feed. Readers of the
format take other characters for the end of a record too, and a value that has one of them and
none of the three is cut in two.

## Key results

- `toList_toCsv`: the export is a file of the library's writer.
- `read_toCsv_iff`: a reader finds the entries exactly when every such value is in quotes.
-/

namespace Barqium.Native.AdminUi

/-! ## Cells -/

/-- A text includes a character if it has it. -/
private theorem includes_singleton (text : String) (c : Char) :
    includes text (String.singleton c) = true ↔ c ∈ text.toList := by
  simp [includes, List.singleton_infix_iff]

/-- Quotes are needed for commas, quotes and line feeds. -/
theorem needsQuotes_iff (str : String) :
    needsQuotes str = true ↔ ',' ∈ str.toList ∨ '"' ∈ str.toList ∨ '\n' ∈ str.toList := by
  rw [needsQuotes, Bool.or_eq_true, Bool.or_eq_true, or_assoc]
  exact or_congr (includes_singleton str ',')
    (or_congr (includes_singleton str '"') (includes_singleton str '\n'))

/-- A value as a cell of the library's writer. -/
def cellOf (str : String) : Csv.Cell where
  text := str.toList
  inQuotes := needsQuotes str
  plain h := by
    rw [← Bool.not_eq_true, needsQuotes_iff, not_or, not_or] at h
    exact ⟨h.1, h.2.1⟩

/-- A value is written as a cell. -/
private theorem toList_csvCell (str : String) : (csvCell str).toList = (cellOf str).write := by
  unfold csvCell Csv.Cell.write
  change _ = if needsQuotes str then _ else _
  split
  · simp [doubleQuotes, Csv.doubled, cellOf]
  · rfl

/-! ## Records -/

/-- A header needs no quotes, so it is written like a value. -/
private theorem csvCell_header {header : String} (h : header ∈ exportColumns.map Prod.fst) :
    csvCell header = header := by
  refine if_neg ?_
  rw [needsQuotes_iff]
  simp only [exportColumns, List.map_cons, List.map_nil, List.mem_cons, List.not_mem_nil,
    or_false] at h
  rcases h with rfl | rfl | rfl | rfl | rfl | rfl | rfl <;> simp

/-- The records of an export: the headers and one for each entry. -/
def exportRecords (entries : List AuditLogEntry) : List (List String) :=
  exportColumns.map Prod.fst :: entries.map AuditLogEntry.values

/-- An entry is written as a record. -/
private theorem toList_row (values : List String) :
    (",".intercalate (values.map csvCell)).toList = Csv.writeRecord (values.map cellOf) := by
  rw [String.toList_intercalate, Csv.writeRecord, List.map_map, List.map_map]
  congr 1
  exact List.map_congr_left fun str _ => toList_csvCell str

/-- The export is made of the column names and the entries. -/
private theorem toCsv_eq (entries : List AuditLogEntry) :
    toCsv entries =
      "\n".intercalate ((exportRecords entries).map fun values =>
        ",".intercalate (values.map csvCell)) := by
  have hheaders : (exportColumns.map Prod.fst).map csvCell = exportColumns.map Prod.fst :=
    (List.map_congr_left fun _ h => csvCell_header h).trans (List.map_id _)
  rw [toCsv, exportRecords, List.map_cons, hheaders, List.map_map]
  rfl

/-- The characters of an export are those of a CSV file. -/
theorem toList_toCsv (entries : List AuditLogEntry) :
    (toCsv entries).toList =
      Csv.write ((exportRecords entries).map fun values => values.map cellOf) := by
  rw [toCsv_eq, String.toList_intercalate, Csv.write, List.map_map, List.map_map]
  congr 1
  exact List.map_congr_left fun values _ => toList_row values

/-! ## Reading an export -/

/-- A reader that ends records at line feeds, and perhaps at other characters, but at none that
    a name of a column can have. -/
structure Reads (ends : Char → Bool) : Prop where
  lineFeed : ends '\n' = true
  name (c : Char) : c.isAlpha ∨ c = '_' → ends c = false

/-- The name of a column has letters and underscores only. -/
private theorem isAlpha_of_mem_header {header : String} (h : header ∈ exportColumns.map Prod.fst) :
    ∀ c ∈ header.toList, c.isAlpha ∨ c = '_' := by
  simp only [exportColumns, List.map_cons, List.map_nil, List.mem_cons, List.not_mem_nil,
    or_false] at h
  rcases h with rfl | rfl | rfl | rfl | rfl | rfl | rfl <;> simp

/-- A value is safe if it is in quotes whenever one of its characters ends records. -/
theorem safe_cellOf_iff (ends : Char → Bool) (str : String) :
    (cellOf str).Safe ends ↔
      ((∃ c ∈ str.toList, ends c = true) → needsQuotes str = true) := by
  change (needsQuotes str = false → ∀ c ∈ str.toList, ends c = false) ↔ _
  cases needsQuotes str <;> simp

/-- A reader finds the names of the columns and the values of every entry in the export if and
    only if each value with a character at which the reader ends a record also has a comma, a
    quote or a line feed. -/
theorem read_toCsv_iff {ends : Char → Bool} (hreads : Reads ends)
    (entries : List AuditLogEntry) :
    Csv.read ends (toCsv entries).toList =
        (exportRecords entries).map (fun values => values.map String.toList) ↔
      ∀ e ∈ entries, ∀ value ∈ e.values, (∃ c ∈ value.toList, ends c = true) →
        ',' ∈ value.toList ∨ '"' ∈ value.toList ∨ '\n' ∈ value.toList := by
  -- every record has more than one cell, so none reads as an empty line
  have hlength : ∀ cells ∈ (exportRecords entries).map (fun values => values.map cellOf),
      2 ≤ cells.length := by
    intro cells hmem
    obtain ⟨values, hvalues, rfl⟩ := List.mem_map.mp hmem
    rw [List.length_map]
    rcases List.mem_cons.mp hvalues with rfl | hvalues
    · decide
    · obtain ⟨e, -, rfl⟩ := List.mem_map.mp hvalues
      rw [AuditLogEntry.values, List.length_map]
      decide
  -- the texts of the cells are the values
  have htexts : Csv.texts ((exportRecords entries).map fun values => values.map cellOf) =
      (exportRecords entries).map fun values => values.map String.toList := by
    rw [Csv.texts, List.map_map]
    refine List.map_congr_left fun values _ => ?_
    rw [Function.comp_apply, List.map_map]
    rfl
  rw [toList_toCsv, ← htexts, Csv.read_write_iff hreads.lineFeed (by simp [exportRecords]) hlength]
  constructor
  · intro hsafe e he value hvalue hend
    have hcell := hsafe (e.values.map cellOf)
      (List.mem_map_of_mem (List.mem_cons_of_mem _ (List.mem_map_of_mem he))) (cellOf value)
      (List.mem_map_of_mem hvalue)
    exact (needsQuotes_iff value).mp ((safe_cellOf_iff ends value).mp hcell hend)
  · intro hvalues cells hmem cell hcell
    obtain ⟨record, hrecord, rfl⟩ := List.mem_map.mp hmem
    obtain ⟨value, hvalue, rfl⟩ := List.mem_map.mp hcell
    rw [safe_cellOf_iff]
    intro hend
    rcases List.mem_cons.mp hrecord with rfl | hrecord
    · -- the name of a column ends no record
      obtain ⟨c, hc, hend⟩ := hend
      rw [hreads.name c (isAlpha_of_mem_header hvalue c hc)] at hend
      cases hend
    · obtain ⟨e, he, rfl⟩ := List.mem_map.mp hrecord
      exact (needsQuotes_iff value).mpr (hvalues e he value hvalue hend)

/-- An actor with a carriage return, for a reader that ends records at those too. -/
theorem read_toCsv_iff_carriageReturn :
    let ends (c : Char) : Bool := c = '\n' || c = '\r'
    let e : AuditLogEntry :=
      ⟨"1", "tenant.created", "tenant", none, "jo\rhn", "user", "2024-01-01T00:00:00Z"⟩
    Csv.read ends (toCsv [e]).toList ≠
      (exportRecords [e]).map (fun values => values.map String.toList) := by
  intro ends e h
  have hreads : Reads ends := by
    refine ⟨by decide, fun c hc => ?_⟩
    by_contra hend
    rw [Bool.not_eq_false, Bool.or_eq_true, decide_eq_true_eq, decide_eq_true_eq] at hend
    rcases hend with rfl | rfl <;> simp at hc
  -- the entry would have to be in quotes, and is not
  have hquoted := (read_toCsv_iff hreads [e]).mp h e (by simp) "jo\rhn"
    (by simp [AuditLogEntry.values, exportColumns, e]) ⟨'\r', by simp, by decide⟩
  simp at hquoted

end Barqium.Native.AdminUi
