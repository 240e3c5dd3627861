import Mathlib.Data.List.Basic

/-!
# Comma-separated values

A reader for the format of RFC 4180: records of cells, a cell in quotes with its quotes doubled
or as it is. What ends a record differs between readers (a line feed, a carriage return, other
line separators), so it is a parameter.

## Key results

- `read_write`: a file without stray ends is read as it was meant.
- `read_write_iff`: a file is read as it was meant exactly when no cell that is not in quotes
  has a character that ends a record.
-/

namespace Csv

/-! ## Reader -/

inductive Mode where
  /-- Before the first character of a cell. -/
  | start
  | plain
  | quoted
  /-- After a quote in a cell in quotes: its end, or the first half of a quote. -/
  | quote
  deriving Repr, DecidableEq

structure State where
  records : List (List (List Char))
  /-- The cells of the current record. -/
  record : List (List Char)
  cell : List Char
  mode : Mode
  deriving Repr, DecidableEq

namespace State

def endCell (s : State) : State := ⟨s.records, s.record ++ [s.cell], [], .start⟩

def endRecord (s : State) : State := ⟨s.records ++ [s.record ++ [s.cell]], [], [], .start⟩

def push (s : State) (c : Char) (mode : Mode) : State :=
  { s with cell := s.cell ++ [c], mode }

end State

variable (ends : Char → Bool)

/-- A character that is not in quotes. -/
def outside (s : State) (c : Char) : State :=
  if c = ',' then s.endCell else if ends c then s.endRecord else s.push c .plain

def step (s : State) (c : Char) : State :=
  match s.mode with
  | .start => if c = '"' then { s with mode := .quoted } else outside ends s c
  | .plain => outside ends s c
  | .quoted => if c = '"' then { s with mode := .quote } else s.push c .quoted
  | .quote => if c = '"' then s.push c .quoted else outside ends s c

/-- The records at the end of the text. Nothing after the last end of a record is no record. -/
def finish (s : State) : List (List (List Char)) :=
  if s.record = [] ∧ s.cell = [] ∧ s.mode = .start then s.records else s.endRecord.records

def initial : State := ⟨[], [], [], .start⟩

def read (text : List Char) : List (List (List Char)) := finish (text.foldl (step ends) initial)

/-! ## Writer -/

/-- A quote in a text becomes two. -/
def doubled (text : List Char) : List Char :=
  text.flatMap fun c => if c = '"' then ['"', '"'] else [c]

/-- A cell, written in quotes or as it is. A comma or a quote must be in quotes. -/
structure Cell where
  text : List Char
  inQuotes : Bool
  plain : inQuotes = false → ',' ∉ text ∧ '"' ∉ text

namespace Cell

def write (cell : Cell) : List Char :=
  if cell.inQuotes then '"' :: doubled cell.text ++ ['"'] else cell.text

/-- No reader that ends records at `ends` takes a part of the cell for the end of a record. -/
def Safe (cell : Cell) : Prop := cell.inQuotes = false → ∀ c ∈ cell.text, ends c = false

end Cell

def writeRecord (cells : List Cell) : List Char := [','].intercalate (cells.map Cell.write)

def write (records : List (List Cell)) : List Char :=
  ['\n'].intercalate (records.map writeRecord)

/-- What a reader should find. -/
def texts (records : List (List Cell)) : List (List (List Char)) :=
  records.map fun cells => cells.map Cell.text

/-! ## Steps -/

variable {ends} {s : State}

/-- A comma outside quotes ends the cell. -/
theorem step_comma (hmode : s.mode ≠ .quoted) : step ends s ',' = s.endCell := by
  unfold step
  split <;> simp_all [outside]

/-- A character that ends records does so outside quotes. -/
theorem step_end {c : Char} (hmode : s.mode ≠ .quoted) (hc : ends c = true) (hquote : c ≠ '"')
    (hcomma : c ≠ ',') : step ends s c = s.endRecord := by
  unfold step
  split <;> simp_all [outside]

/-- Any other character at the start of a cell or in a plain one belongs to it. -/
theorem step_plain {c : Char} (hmode : s.mode = .start ∨ s.mode = .plain) (hquote : c ≠ '"')
    (hcomma : c ≠ ',') :
    step ends s c = if ends c then s.endRecord else s.push c .plain := by
  unfold step
  rcases hmode with hmode | hmode <;> simp [hmode, outside, hquote, hcomma]

/-- Between quotes a text with doubled quotes is read as it was. -/
theorem foldl_doubled (s : State) (hmode : s.mode = .quoted) (text : List Char) :
    (doubled text).foldl (step ends) s = { s with cell := s.cell ++ text } := by
  induction text generalizing s with
  | nil => simp [doubled]
  | cons c text ih =>
    rw [doubled, List.flatMap_cons, List.foldl_append, ← doubled]
    -- one character or two, it is pushed
    have hpush : (if c = '"' then ['"', '"'] else [c]).foldl (step ends) s =
        s.push c .quoted := by
      by_cases hc : c = '"'
      · simp [hc, step, hmode, State.push]
      · simp [hc, step, hmode]
    rw [hpush, ih _ rfl]
    simp [State.push, hmode]

/-- A cell in quotes is read as its text by every reader. -/
theorem foldl_inQuotes {cell : Cell} (hquotes : cell.inQuotes = true)
    (hmode : s.mode = .start) :
    cell.write.foldl (step ends) s = { s with cell := s.cell ++ cell.text, mode := .quote } := by
  rw [Cell.write, if_pos hquotes, List.cons_append, List.foldl_cons, List.foldl_concat,
    show step ends s '"' = { s with mode := .quoted } by simp [step, hmode],
    foldl_doubled _ rfl]
  simp [step]

/-! ## Files without stray ends -/

/-- A plain text is read as it is if none of its characters ends a record. -/
theorem foldl_plain (text : List Char) (s : State) (hmode : s.mode = .start ∨ s.mode = .plain)
    (hplain : ',' ∉ text ∧ '"' ∉ text) (hsafe : ∀ c ∈ text, ends c = false) :
    ∃ mode, (mode = .start ∨ mode = .plain) ∧
      text.foldl (step ends) s = { s with cell := s.cell ++ text, mode } := by
  induction text generalizing s with
  | nil => exact ⟨s.mode, hmode, by simp⟩
  | cons c text ih =>
    simp only [List.mem_cons, not_or] at hplain
    -- the character is none that means something, so it goes into the cell
    have hpush : step ends s c = s.push c .plain := by
      rw [step_plain hmode (Ne.symm hplain.2.1) (Ne.symm hplain.1.1),
        hsafe c List.mem_cons_self]
      rfl
    obtain ⟨mode, hend, heq⟩ := ih (s.push c .plain) (.inr rfl) ⟨hplain.1.2, hplain.2.2⟩
      fun d hd => hsafe d (List.mem_cons_of_mem _ hd)
    refine ⟨mode, hend, ?_⟩
    rw [List.foldl_cons, hpush, heq]
    simp [State.push]

/-- A safe cell is read as its text, and the reader is outside quotes behind it. -/
theorem foldl_cell {cell : Cell} (hsafe : cell.Safe ends) (hmode : s.mode = .start) :
    ∃ mode, mode ≠ .quoted ∧
      cell.write.foldl (step ends) s = { s with cell := s.cell ++ cell.text, mode } := by
  cases hquotes : cell.inQuotes with
  | true => exact ⟨.quote, by decide, foldl_inQuotes hquotes hmode⟩
  | false =>
    obtain ⟨mode, hend, heq⟩ :=
      foldl_plain cell.text s (.inl hmode) (cell.plain hquotes) (hsafe hquotes)
    refine ⟨mode, by rintro rfl; simp at hend, ?_⟩
    rw [Cell.write, if_neg (by simp [hquotes]), heq]

/-- At the end of a record all of its cells are read, the last one without its end. -/
theorem foldl_writeRecord {cells : List Cell} (hne : cells ≠ [])
    (hsafe : ∀ cell ∈ cells, cell.Safe ends) (records : List (List (List Char)))
    (record : List (List Char)) :
    ∃ s : State, (writeRecord cells).foldl (step ends) ⟨records, record, [], .start⟩ = s ∧
      s.mode ≠ .quoted ∧ s.records = records ∧
      s.record ++ [s.cell] = record ++ cells.map Cell.text := by
  -- one cell, then a comma and the record of the rest
  induction cells generalizing record with
  | nil => exact absurd rfl hne
  | cons cell cells ih =>
    -- the first cell, and then a comma or the end of the record
    obtain ⟨mode, hmode, heq⟩ := foldl_cell (s := ⟨records, record, [], .start⟩)
      (hsafe cell List.mem_cons_self) rfl
    rw [List.nil_append] at heq
    cases cells with
    | nil =>
      refine ⟨_, rfl, ?_⟩
      rw [writeRecord, List.map_singleton, List.intercalate_singleton, heq]
      exact ⟨hmode, rfl, rfl⟩
    | cons next cells =>
      -- the comma ends the first cell and the rest starts a new one
      have hsplit : writeRecord (cell :: next :: cells) =
          cell.write ++ ',' :: writeRecord (next :: cells) := by
        simp [writeRecord, List.intercalate_cons_cons]
      obtain ⟨s, hs, hmode', hrecords, hcells⟩ := ih (by simp)
        (fun c hc => hsafe c (List.mem_cons_of_mem _ hc)) (record ++ [cell.text])
      refine ⟨s, ?_, hmode', hrecords, ?_⟩
      · rw [hsplit, List.foldl_append, List.foldl_cons, heq, step_comma hmode]
        exact hs
      · rw [hcells]
        simp

theorem foldl_write (hlf : ends '\n' = true) {records : List (List Cell)} (hne : records ≠ [])
    (hcells : ∀ cells ∈ records, cells ≠ [])
    (hsafe : ∀ cells ∈ records, ∀ cell ∈ cells, cell.Safe ends)
    (done : List (List (List Char))) :
    ∃ s : State, (write records).foldl (step ends) ⟨done, [], [], .start⟩ = s ∧
      s.endRecord.records = done ++ texts records ∧
      ∃ cells ∈ records, s.record ++ [s.cell] = cells.map Cell.text := by
  -- one record, then a line end and the rest
  induction records generalizing done with
  | nil => exact absurd rfl hne
  | cons cells records ih =>
    -- the first record, and then a line feed or the end of the file
    obtain ⟨s, hs, hmode, hrecords, hrecord⟩ := foldl_writeRecord
      (hcells cells List.mem_cons_self) (hsafe cells List.mem_cons_self) done []
    rw [List.nil_append] at hrecord
    cases records with
    | nil =>
      refine ⟨s, ?_, ?_, cells, List.mem_cons_self, hrecord⟩
      · rwa [write, List.map_singleton, List.intercalate_singleton]
      · rw [State.endRecord, hrecords, hrecord]
        rfl
    | cons next records =>
      -- the line end closes the first record, which joins the ones done
      have hsplit : write (cells :: next :: records) =
          writeRecord cells ++ '\n' :: write (next :: records) := by
        simp [write, List.intercalate_cons_cons]
      obtain ⟨s', hs', hdone, last, hlast, hcell⟩ := ih (by simp)
        (fun c hc => hcells c (List.mem_cons_of_mem _ hc))
        (fun c hc => hsafe c (List.mem_cons_of_mem _ hc)) (done ++ [cells.map Cell.text])
      refine ⟨s', ?_, ?_, last, List.mem_cons_of_mem _ hlast, hcell⟩
      · rw [hsplit, List.foldl_append, List.foldl_cons, hs,
          step_end hmode hlf (by decide) (by decide), State.endRecord, hrecords, hrecord]
        exact hs'
      · rw [hdone]
        simp [texts]

/-- A file whose cells are all safe is read as it was meant. -/
theorem read_write (hlf : ends '\n' = true) {records : List (List Cell)} (hne : records ≠ [])
    (hcells : ∀ cells ∈ records, 2 ≤ cells.length)
    (hsafe : ∀ cells ∈ records, ∀ cell ∈ cells, cell.Safe ends) :
    read ends (write records) = texts records := by
  have hnonempty : ∀ cells ∈ records, cells ≠ [] := by
    rintro cells hmem rfl
    exact absurd (hcells [] hmem) (by decide)
  obtain ⟨s, hs, hdone, cells, hmem, hrecord⟩ := foldl_write hlf hne hnonempty hsafe []
  -- the end of the file ends the last record, which is not empty
  rw [read, initial, hs, finish, if_neg, hdone, List.nil_append]
  rintro ⟨hnil, -⟩
  have hlen := congrArg List.length hrecord
  have := hcells cells hmem
  simp [hnil] at hlen
  omega

/-! ## Stray ends -/

variable (ends) in
/-- How often a character that ends records is part of a cell that was read. Only quotes keep
    such a character, so a reader finds no more of them than there are in quotes. -/
def kept (cells : List (List Char)) : Nat := cells.flatten.countP ends

/-- Characters of two lists of cells. -/
@[simp] theorem kept_append (a b : List (List Char)) :
    kept ends (a ++ b) = kept ends a + kept ends b := by
  simp [kept]

@[simp] theorem kept_nil : kept ends [] = 0 := rfl

@[simp] theorem kept_cons (text : List Char) (cells : List (List Char)) :
    kept ends (text :: cells) = text.countP ends + kept ends cells := by
  simp [kept]

variable (ends) in
def State.kept (s : State) : Nat :=
  Csv.kept ends s.records.flatten + Csv.kept ends s.record + s.cell.countP ends

/-- Ending a cell keeps what has been kept. -/
@[simp] theorem kept_endCell (s : State) : s.endCell.kept ends = s.kept ends := by
  simp [State.kept, State.endCell]
  omega

/-- Ending a record keeps what has been kept. -/
@[simp] theorem kept_endRecord (s : State) : s.endRecord.kept ends = s.kept ends := by
  simp [State.kept, State.endRecord]
  omega

variable (ends) in
/-- The end of the file keeps what has been kept. -/
theorem kept_finish (s : State) : kept ends (finish s).flatten = s.kept ends := by
  unfold finish
  split
  · next h => simp [State.kept, h.1, h.2.1]
  · simp [State.endRecord, State.kept]
    omega

/-- The characters of a cell that a reader can keep. -/
def Cell.quotedText (cell : Cell) : List Char := if cell.inQuotes then cell.text else []

variable (ends) in
/-- Outside quotes no character that ends a record is kept. -/
theorem kept_plain (text : List Char) (s : State) (hmode : s.mode = .start ∨ s.mode = .plain)
    (hplain : ',' ∉ text ∧ '"' ∉ text) :
    (text.foldl (step ends) s).mode ≠ .quoted ∧
      (text.foldl (step ends) s).kept ends = s.kept ends := by
  induction text generalizing s with
  | nil => exact ⟨by rcases hmode with h | h <;> simp [h], rfl⟩
  | cons c text ih =>
    simp only [List.mem_cons, not_or] at hplain
    rw [List.foldl_cons, step_plain hmode (Ne.symm hplain.2.1) (Ne.symm hplain.1.1)]
    split
    · -- the character ends the record and is lost
      have h := ih s.endRecord (.inl rfl) ⟨hplain.1.2, hplain.2.2⟩
      rwa [kept_endRecord] at h
    · next hc =>
      have h := ih (s.push c .plain) (.inr rfl) ⟨hplain.1.2, hplain.2.2⟩
      rwa [show (s.push c .plain).kept ends = s.kept ends by
        simp [State.kept, State.push, hc]] at h

variable (ends) in
/-- Of a written cell those characters are kept that stand in quotes. -/
theorem kept_cell (cell : Cell) (hmode : s.mode = .start) :
    (cell.write.foldl (step ends) s).mode ≠ .quoted ∧
      (cell.write.foldl (step ends) s).kept ends =
        s.kept ends + cell.quotedText.countP ends := by
  cases hquotes : cell.inQuotes with
  | true =>
    rw [foldl_inQuotes hquotes hmode]
    simp [State.kept, Cell.quotedText, hquotes, Nat.add_assoc]
  | false =>
    have h := kept_plain ends cell.text s (.inl hmode) (cell.plain hquotes)
    simpa [Cell.write, Cell.quotedText, hquotes] using h

variable (ends) in
/-- Of a written record those characters are kept that stand in quotes. -/
theorem kept_writeRecord {cells : List Cell} (hne : cells ≠ []) (s : State)
    (hmode : s.mode = .start) :
    ((writeRecord cells).foldl (step ends) s).mode ≠ .quoted ∧
      ((writeRecord cells).foldl (step ends) s).kept ends =
        s.kept ends + kept ends (cells.map Cell.quotedText) := by
  induction cells generalizing s with
  | nil => exact absurd rfl hne
  | cons cell cells ih =>
    have hcell := kept_cell ends cell hmode
    cases cells with
    | nil => simpa [writeRecord] using hcell
    | cons next cells =>
      have hsplit : writeRecord (cell :: next :: cells) =
          cell.write ++ ',' :: writeRecord (next :: cells) := by
        simp [writeRecord, List.intercalate_cons_cons]
      -- the comma between two cells keeps nothing
      rw [hsplit, List.foldl_append, List.foldl_cons, step_comma hcell.1]
      have hrest := ih (by simp) (cell.write.foldl (step ends) s).endCell rfl
      refine ⟨hrest.1, ?_⟩
      rw [hrest.2, kept_endCell, hcell.2]
      simp [Nat.add_assoc]

/-- Of a written file those characters are kept that stand in quotes. -/
theorem kept_write (hlf : ends '\n' = true) {records : List (List Cell)}
    (hcells : ∀ cells ∈ records, cells ≠ []) (s : State) (hmode : s.mode = .start) :
    ((write records).foldl (step ends) s).kept ends =
      s.kept ends + kept ends (records.flatten.map Cell.quotedText) := by
  induction records generalizing s with
  | nil => simp [write]
  | cons cells records ih =>
    have hrecord := kept_writeRecord ends (hcells cells List.mem_cons_self) s hmode
    cases records with
    | nil => simpa [write] using hrecord.2
    | cons next records =>
      have hsplit : write (cells :: next :: records) =
          writeRecord cells ++ '\n' :: write (next :: records) := by
        simp [write, List.intercalate_cons_cons]
      -- the line feed between two records keeps nothing
      rw [hsplit, List.foldl_append, List.foldl_cons,
        step_end hrecord.1 hlf (by decide) (by decide),
        ih (fun c hc => hcells c (List.mem_cons_of_mem _ hc)) _ rfl, kept_endRecord, hrecord.2]
      simp only [List.flatten_cons, List.map_append, kept_append]
      omega

/-- If as many ends are in quotes as in all cells, every cell is safe. -/
theorem safe_of_kept {cells : List Cell}
    (h : kept ends (cells.map Cell.text) = kept ends (cells.map Cell.quotedText)) :
    ∀ cell ∈ cells, cell.Safe ends := by
  -- quoting never adds a character that ends a record
  have hle (cell : Cell) : cell.quotedText.countP ends ≤ cell.text.countP ends := by
    unfold Cell.quotedText
    split <;> simp
  have hle' (cells : List Cell) :
      kept ends (cells.map Cell.quotedText) ≤ kept ends (cells.map Cell.text) := by
    induction cells with
    | nil => exact Nat.le_refl _
    | cons cell cells ih => simpa using Nat.add_le_add (hle cell) ih
  induction cells with
  | nil => simp
  | cons cell cells ih =>
    simp only [List.map_cons, kept_cons] at h
    have := hle cell
    have := hle' cells
    simp only [List.mem_cons, forall_eq_or_imp]
    refine ⟨fun hquotes c hc => ?_, ih (by omega)⟩
    -- so the first cell, which is not in quotes, has none of them
    have hzero : cell.text.countP ends = 0 := by
      have hnil : cell.quotedText = [] := by simp [Cell.quotedText, hquotes]
      rw [hnil, List.countP_nil] at h
      omega
    simpa using List.countP_eq_zero.mp hzero c hc

/-- A file is read as it was meant exactly when its cells are safe: every character that the
    reader takes for the end of a record is in quotes. -/
theorem read_write_iff (hlf : ends '\n' = true) {records : List (List Cell)}
    (hne : records ≠ []) (hcells : ∀ cells ∈ records, 2 ≤ cells.length) :
    read ends (write records) = texts records ↔
      ∀ cells ∈ records, ∀ cell ∈ cells, cell.Safe ends := by
  refine ⟨fun h => ?_, read_write hlf hne hcells⟩
  have hnonempty : ∀ cells ∈ records, cells ≠ [] := by
    rintro cells hmem rfl
    exact absurd (hcells [] hmem) (by decide)
  -- what is read keeps as many such characters as the cells have, so all of them stand in quotes
  have hkept := kept_finish ends ((write records).foldl (step ends) initial)
  have hinitial : initial.kept ends = 0 := rfl
  rw [kept_write hlf hnonempty _ rfl, ← read, h, texts, ← List.map_flatten, hinitial,
    Nat.zero_add] at hkept
  have hall := safe_of_kept hkept
  exact fun cells hmem cell hcell => hall cell (List.mem_flatten_of_mem hmem hcell)

end Csv
