import Barqium.ForStd.Utf8

/-!
# Event streams

The text format of server-sent events: lines that end with a line feed, a carriage
return or both are comments (they begin with a colon) or fields, and an empty line
dispatches the event collected so far. Of an event only its data is kept, the values
of its `data` fields with line feeds between them. What is left at the end of the
text without an empty line is no event.

## Key results

- `exists_data_line`: a stream with an event has a line that begins with `data`.
-/

namespace EventStream

open Utf8 (AtLineStart)

/-- The lines of a stream, `current` being what has been read of the line. -/
def linesFrom : List Char → List Char → List (List Char)
  | _, [] => []
  -- a carriage return and a line feed end one line, not two
  | current, '\r' :: '\n' :: rest => current :: linesFrom [] rest
  | current, c :: rest =>
    if c = '\n' ∨ c = '\r' then current :: linesFrom [] rest else linesFrom (current ++ [c]) rest

/-- The value of a field: what comes after the colon, without a space that follows it. -/
def fieldValue (line : List Char) : List Char :=
  match line.dropWhile (· ≠ ':') with
  | [] => []
  | _ :: ' ' :: value => value
  | _ :: value => value

/-- The value of a line that is a `data` field. -/
def dataValue (line : List Char) : Option (List Char) :=
  if line.takeWhile (· ≠ ':') = "data".toList then some (fieldValue line) else none

/-- The data of the events dispatched by the lines, `buffer` being the data collected so
    far. -/
def dispatch : List Char → List (List Char) → List (List Char)
  | _, [] => []
  -- an event without data is dropped; of the others the last line feed goes
  | buffer, [] :: lines =>
    if buffer = [] then dispatch [] lines else buffer.dropLast :: dispatch [] lines
  | buffer, line :: lines =>
    match dataValue line with
    | some value => dispatch (buffer ++ value ++ ['\n']) lines
    | none => dispatch buffer lines

/-- The data of the events of a stream. -/
def data (text : List Char) : List (List Char) := dispatch [] (linesFrom [] text)

/-- Two events, the first with its data on two lines, and a comment between them. -/
example : data "event: a\ndata: x\ndata:y\n\n: note\r\ndata: z\r\n\r\ndata: cut".toList =
    ["x\ny".toList, "z".toList] := by decide

/-- A line of a text stands at the start of one of its lines. -/
theorem atLineStart_of_mem_linesFrom {current text line : List Char}
    (h : line ∈ linesFrom current text) : AtLineStart line (current ++ text) := by
  -- along the reader: a line begins the text or stands behind a line end
  fun_induction linesFrom current text with
  | case1 current => cases h
  | case2 current rest ih =>
    rcases List.mem_cons.mp h with rfl | h
    · exact .inl (List.prefix_append _ _)
    · -- the line stands behind a CR
      have hbehind := (ih h).behind (current ++ ['\r']) (.inl rfl)
      rwa [List.append_assoc] at hbehind
  | case3 current c rest hcr hc ih =>
    rcases List.mem_cons.mp h with rfl | h
    · exact .inl (List.prefix_append _ _)
    · exact (ih h).behind current hc
  | case4 current c rest hcr hc ih =>
    have := ih h
    rwa [List.append_assoc, List.singleton_append] at this

/-- Data is collected from `data` fields only. -/
theorem exists_dataValue_of_dispatch {buffer : List Char} {lines : List (List Char)}
    (h : dispatch buffer lines ≠ []) (hbuffer : buffer = []) :
    ∃ line ∈ lines, (dataValue line).isSome := by
  fun_induction dispatch buffer lines with
  | case1 buffer => exact absurd rfl h
  | case2 lines ih =>
    obtain ⟨line, hline, hsome⟩ := ih h rfl
    exact ⟨line, List.mem_cons_of_mem _ hline, hsome⟩
  | case3 buffer lines hb ih => exact absurd hbuffer hb
  | case4 buffer line lines hne value hvalue ih =>
    exact ⟨line, List.mem_cons_self, by rw [hvalue]; rfl⟩
  | case5 buffer line lines hne hvalue ih =>
    obtain ⟨line', hline, hsome⟩ := ih h hbuffer
    exact ⟨line', List.mem_cons_of_mem _ hline, hsome⟩

/-- A stream with an event has a line that begins with `data`. -/
theorem exists_data_line {text : List Char} (h : data text ≠ []) :
    AtLineStart "data".toList text := by
  obtain ⟨line, hline, hsome⟩ := exists_dataValue_of_dispatch h rfl
  have hfield : line.takeWhile (· ≠ ':') = "data".toList := by
    unfold dataValue at hsome
    split at hsome
    · assumption
    · cases hsome
  have hstart := atLineStart_of_mem_linesFrom hline
  rw [List.nil_append] at hstart
  exact hstart.of_isPrefix (hfield ▸ List.takeWhile_prefix _)

end EventStream
