import Barqium.ForStd.Utf8

/-!
# Decoding a stream line by line

A body arrives in chunks, and every chunk is decoded by itself: its bytes to text,
the text to lines, and every line to at most one event. `emitted` is what such a
decoder emits.

## Key results

- `independent_iff`: the events do not depend on the chunks exactly when no part of
  the body is by itself a line with an event.
- `emitted_of_atLineEnds`: they do not as long as every chunk ends with a line.
-/

namespace LineStream

open Utf8

variable {ε : Type} (event : List Char → Option ε)

/-- The events of one chunk. -/
def chunkEvents (chunk : List UInt8) : List ε := (lines (fromLossy chunk)).filterMap event

/-- The events of the chunks of a body. -/
def emitted (chunks : List (List UInt8)) : List ε := chunks.flatMap (chunkEvents event)

/-- The events are the same for all ways to cut the body into chunks. -/
def Independent (body : List UInt8) : Prop :=
  ∀ a b : List (List UInt8), a.flatten = body → b.flatten = body →
    emitted event a = emitted event b

/-- No part of the body is by itself a line with an event. -/
def NoEvent (body : List UInt8) : Prop :=
  ∀ part, part <:+: body → '\n' ∉ fromLossy part → event (fromLossy part) = none

/-- A byte by itself is one line of at most one character. -/
theorem lines_singleton (b : UInt8) :
    lines (fromLossy [b]) = [[]] ∨ ∃ c, lines (fromLossy [b]) = [[c]] := by
  obtain ⟨c, hc⟩ := List.length_eq_one_iff.mp (length_fromLossy_singleton b)
  rw [hc]
  by_cases hlf : c = '\n'
  · subst hlf
    exact Or.inl rfl
  · refine Or.inr ⟨c, lines_eq_single ?_ (by simp)⟩
    simp [Ne.symm hlf]

variable {event}

/-- Delivered byte by byte, a body has no event. -/
theorem emitted_bytes (hnil : event [] = none) (hone : ∀ c, event [c] = none)
    (body : List UInt8) : emitted event (body.map fun b => [b]) = [] := by
  unfold emitted
  rw [List.flatMap_eq_nil_iff]
  intro chunk hchunk
  obtain ⟨b, -, rfl⟩ := List.mem_map.mp hchunk
  unfold chunkEvents
  obtain hlines | ⟨c, hlines⟩ := lines_singleton b
  · simp [hlines, hnil]
  · simp [hlines, hone]

/-- However the body is cut, nothing is emitted where no cut has an event. -/
theorem emitted_eq_nil {body : List UInt8} (h : NoEvent event body) {chunks : List (List UInt8)}
    (hchunks : chunks.flatten = body) : emitted event chunks = [] := by
  unfold emitted
  rw [List.flatMap_eq_nil_iff]
  intro chunk hchunk
  unfold chunkEvents
  rw [List.filterMap_eq_nil_iff]
  intro line hline
  -- a line of a chunk is the text of a part of the body
  obtain ⟨hlf, part, hpart, rfl⟩ := exists_infix_of_mem_lines hline
  have hinfix : chunk <:+: body := hchunks ▸ List.infix_of_mem_flatten hchunk
  exact h part (hpart.trans hinfix) hlf

/-- A chunk with one line gives the event of that line. -/
theorem chunkEvents_of_line {part : List UInt8} (hlf : '\n' ∉ fromLossy part)
    (hnil : event [] = none) :
    chunkEvents event part = (event (fromLossy part)).toList := by
  unfold chunkEvents
  by_cases hempty : fromLossy part = []
  · simp [hempty, hnil, lines, linesFrom]
  · rw [lines_eq_single hlf hempty]
    cases hevent : event (fromLossy part) <;> simp [hevent]

/-- A decoder with no event in a line of at most one character depends on the chunks
    as soon as a part of the body has an event. -/
theorem independent_iff (hnil : event [] = none) (hone : ∀ c, event [c] = none)
    (body : List UInt8) : Independent event body ↔ NoEvent event body := by
  constructor
  · intro h part hpart hlf
    obtain ⟨u, v, rfl⟩ := hpart
    -- the part as a chunk of its own, against the body byte by byte
    have hbytes : ((u ++ part ++ v).map fun b => [b]).flatten = u ++ part ++ v := by
      rw [← List.flatMap_def, List.flatMap_singleton']
    have hsplit := h [u, part, v] ((u ++ part ++ v).map fun b => [b]) (by simp) hbytes
    rw [emitted_bytes hnil hone] at hsplit
    have hevents : chunkEvents event part = [] := by
      simp only [emitted, List.flatMap_eq_nil_iff] at hsplit
      exact hsplit part (by simp)
    rw [chunkEvents_of_line hlf hnil] at hevents
    cases hevent : event (fromLossy part) with
    | none => rfl
    | some e => simp [hevent] at hevents
  · intro h a b ha hb
    rw [emitted_eq_nil h ha, emitted_eq_nil h hb]

/-- Every chunk but the last ends with a line feed. -/
def AtLineEnds (chunks : List (List UInt8)) : Prop :=
  ∀ chunk ∈ chunks.dropLast, chunk.getLast? = some 10

/-- A chunk can be cut behind a line feed. -/
theorem chunkEvents_append (l r : List UInt8) :
    chunkEvents event (l ++ 10 :: r) = chunkEvents event (l ++ [10]) ++ chunkEvents event r := by
  have hlf : charOf [10] = '\n' := by decide
  have hone : fromLossy (l ++ [10]) = fromLossy l ++ ['\n'] := by
    rw [fromLossy_append_ascii (by decide), hlf]
    rfl
  unfold chunkEvents
  rw [fromLossy_append_ascii (by decide), hlf, hone, lines_append, List.filterMap_append]

/-- Chunks that end with lines have the events of the whole body. -/
theorem emitted_of_atLineEnds {chunks : List (List UInt8)} (h : AtLineEnds chunks) :
    emitted event chunks = chunkEvents event chunks.flatten := by
  induction chunks with
  | nil => rfl
  | cons chunk chunks ih =>
    cases chunks with
    | nil => simp [emitted]
    | cons next chunks =>
      -- every chunk but the last ends in a line feed, so it can be joined with the next
      have hlast : chunk.getLast? = some 10 := h chunk (by simp)
      have hrest : AtLineEnds (next :: chunks) := fun c hc => h c (by simp_all)
      obtain ⟨l, rfl⟩ := List.getLast?_eq_some_iff.mp hlast
      -- cut behind that line feed, no line lies across two chunks
      have hflat : ((l ++ [10]) :: next :: chunks).flatten =
          l ++ 10 :: (next :: chunks).flatten := by
        simp
      have hcons : emitted event ((l ++ [10]) :: next :: chunks) =
          chunkEvents event (l ++ [10]) ++ emitted event (next :: chunks) := rfl
      rw [hcons, ih hrest, hflat]
      exact (chunkEvents_append l _).symm

end LineStream
