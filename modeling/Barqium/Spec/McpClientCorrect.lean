import Barqium.ForStd.Except
import Barqium.ForStd.EventStream
import Barqium.Native.McpClient

/-!
# Which bodies the MCP client finds a response in

`send` takes a body for an event stream when `data:` occurs in it, and then looks at
the first line that begins so. In a JSON text no line begins so, whatever its strings
contain. In an event stream the first such line need not be the one with the response.

## Key results

- `jsonStr_of_isTokens`: a JSON text is parsed as a whole.
- `findsResponse_iff`: the response is found in a JSON body and in an event stream,
  exactly when in an event stream the first `data:` line carries it alone.
-/

namespace Barqium.Native.McpClient

open Utf8 (AtLineStart)

/-! ## Lines of a JSON text -/

/-- Text is tokens if the lexer is outside of all literals at its end. -/
theorem isTokens_iff {text : List Char} :
    Serde.isTokens text = true ↔ text.foldlM Serde.LexState.step .plain = some .plain :=
  decide_eq_true_iff

/-- A line ending is read outside strings only. -/
private theorem step_lineEnd {s s' : Serde.LexState} {c : Char} (hc : c = '\n' ∨ c = '\r')
    (h : s.step c = some s') : s' = .plain := by
  rcases hc with rfl | rfl
  · cases s <;> revert h <;> revert s' <;> decide
  · cases s <;> revert h <;> revert s' <;> decide

/-- What stands at the beginning of a line is read outside strings. -/
private theorem foldlM_of_atLineStart {part text : List Char} (htext : Serde.isTokens text = true)
    (h : AtLineStart part text) :
    ∃ rest, (part ++ rest).foldlM Serde.LexState.step .plain = some .plain := by
  rw [isTokens_iff] at htext
  rcases h with ⟨rest, rfl⟩ | ⟨u, c, v, rfl, hc, rest, rfl⟩
  · exact ⟨rest, htext⟩
  · -- whatever was read up to the line ending `c`, the lexer is outside strings behind it
    rw [List.foldlM_append] at htext
    obtain ⟨s, -, htext⟩ := Option.bind_eq_some_iff.mp htext
    rw [List.foldlM_cons] at htext
    obtain ⟨s', hs', htext⟩ := Option.bind_eq_some_iff.mp htext
    rw [step_lineEnd hc hs'] at htext
    exact ⟨rest, htext⟩

/-- No line of a JSON text begins with a `d`. -/
private theorem not_atLineStart_d {text : List Char} (htext : Serde.isTokens text = true)
    (part : List Char) : ¬ AtLineStart ('d' :: part) text := by
  intro h
  obtain ⟨rest, hrest⟩ := foldlM_of_atLineStart htext h
  rw [List.cons_append, List.foldlM_cons] at hrest
  have hd : Serde.LexState.step .plain 'd' = none := by decide
  rw [hd] at hrest
  cases hrest

/-- The first line of a body that begins with `data:`. -/
def firstDataLine (body : List Char) : Option (List Char) :=
  (Utf8.lines body).find? fun l => "data:".toList.isPrefixOf l

/-- The first data line stands at the start of a line. -/
private theorem firstDataLine_eq_some {body line : List Char} (h : firstDataLine body = some line) :
    AtLineStart "data:".toList body := by
  have hprefix := List.find?_some h
  rw [List.isPrefixOf_iff_prefix] at hprefix
  exact (Utf8.atLineStart_of_mem_lines (List.mem_of_find?_eq_some h)).of_isPrefix hprefix

/-- A body is parsed from its first data line on, if it has one. -/
private theorem jsonStr_eq (body : List Char) :
    jsonStr body = ((firstDataLine body).map fun l => Text.trim (l.drop 5)).getD body := by
  unfold jsonStr
  split
  · rfl
  · rename_i hmarker
    cases hfirst : firstDataLine body with
    | none => rfl
    | some line =>
      -- a line that begins with the marker has the marker in the body
      exfalso
      apply hmarker
      rcases firstDataLine_eq_some hfirst with h | ⟨u, c, v, rfl, -, h⟩
      · exact h.isInfix
      · exact h.isInfix.trans ((List.suffix_cons c v).trans (List.suffix_append u _)).isInfix

/-- A JSON text is parsed as a whole, also when its strings contain `data:`. -/
theorem jsonStr_of_isTokens {body : List Char} (h : Serde.isTokens body = true) :
    jsonStr body = body := by
  rw [jsonStr_eq]
  cases hfirst : firstDataLine body with
  | none => rfl
  | some line => exact absurd (firstDataLine_eq_some hfirst) (not_atLineStart_d h _)

/-! ## Responses -/

variable (parser : ResponseParser)

/-- The body is an event stream with one event whose data is a response, `r`. -/
def SoleEvent (body : List Char) (r : RpcResponse) : Prop :=
  ∃ before data after, EventStream.data body = before ++ data :: after ∧
    parser.fromStr data = .ok r ∧
    ∀ other ∈ before ++ after, ∀ r', parser.fromStr other ≠ .ok r'

/-- Whatever the request and the server, `send` returns the response that a successful
    body is the JSON text of, or that is the data of one event of it. -/
def FindsResponse (body : List Char) : Prop :=
  ∀ post req status r, post req = .ok ⟨status, .ok body⟩ → isSuccess status = true →
    parser.fromStr body = .ok r ∨ SoleEvent parser body r → send parser post req = .ok r

/-- The first line that begins with `data:` is by itself a JSON text of `r`. -/
def CarriedByFirstLine (body : List Char) (r : RpcResponse) : Prop :=
  ∃ line, firstDataLine body = some line ∧ parser.fromStr (Text.trim (line.drop 5)) = .ok r

variable {parser}

/-- A request succeeds if the body that comes back has a response. -/
theorem send_eq_ok {post : RpcRequest → Except String HttpResponse} {req : RpcRequest}
    {status : UInt16} {body : List Char} {r : RpcResponse}
    (hpost : post req = .ok ⟨status, .ok body⟩) (hstatus : isSuccess status = true) :
    send parser post req = .ok r ↔ parser.fromStr (jsonStr body) = .ok r := by
  simp only [send, hpost, hstatus, Bool.not_true, Bool.false_eq_true, if_false]
  exact Except.mapError_eq_ok_iff

/-- In an event stream the response is found if and only if the first data line carries
    it. -/
private theorem fromStr_jsonStr_of_event {body : List Char} {r : RpcResponse}
    (hevent : EventStream.data body ≠ []) :
    parser.fromStr (jsonStr body) = .ok r ↔ CarriedByFirstLine parser body r := by
  rw [jsonStr_eq, CarriedByFirstLine]
  cases hfirst : firstDataLine body with
  | some line => simp
  | none =>
    -- the body as a whole is no JSON text
    refine iff_of_false (fun h => ?_) (by simp)
    exact not_atLineStart_d (parser.isTokens_of_ok _ _ h) _ (EventStream.exists_data_line hevent)

variable (parser) in
/-- For every body: `send` returns the response that the body is the JSON text of, or that
    one event of it carries, if and only if in the latter case the first line that
    begins with `data:` is by itself a JSON text of that response. -/
theorem findsResponse_iff (body : List Char) :
    FindsResponse parser body ↔
      ∀ r, SoleEvent parser body r → CarriedByFirstLine parser body r := by
  constructor
  · intro hfinds r hevent
    -- any request to a server that answers with this body decides it
    have hsend := hfinds (fun _ => .ok ⟨200, .ok body⟩) ⟨"2.0", .null, "", none⟩ 200 r rfl rfl
      (.inr hevent)
    rw [send_eq_ok rfl rfl] at hsend
    obtain ⟨before, data, after, hdata, -⟩ := hevent
    exact (fromStr_jsonStr_of_event (by simp [hdata])).mp hsend
  · intro hcarried post req status r hpost hstatus hbody
    rw [send_eq_ok hpost hstatus]
    rcases hbody with hjson | hevent
    · rw [jsonStr_of_isTokens (parser.isTokens_of_ok _ _ hjson)]
      exact hjson
    · have hline := hcarried r hevent
      obtain ⟨before, data, after, hdata, -⟩ := hevent
      exact (fromStr_jsonStr_of_event (by simp [hdata])).mpr hline

/-- The text of a response with an empty result. -/
def emptyResponse : List Char := "\x7b\"jsonrpc\":\"2.0\",\"id\":1,\"result\":\x7b\x7d\x7d".toList

/-- The text of a progress notification. -/
def progressNotification : List Char :=
  "\x7b\"jsonrpc\":\"2.0\",\"method\":\"notifications/progress\"\x7d".toList

/-- What serde_json makes of these two texts. -/
def twoTextParser : ResponseParser where
  fromStr text :=
    if text = emptyResponse then .ok ⟨"2.0", .num "1", some (.obj []), none⟩
    else .error "missing field `id` at line 1 column 51"
  isTokens_of_ok := by
    intro text r h
    split at h
    · rename_i htext
      rw [htext]
      decide
    · cases h

/-- A notification is no response. -/
private theorem twoTextParser_notification (r : RpcResponse) :
    twoTextParser.fromStr progressNotification ≠ .ok r := by
  have hne : progressNotification ≠ emptyResponse := by decide
  simp only [twoTextParser, if_neg hne]
  exact nofun

/-- A progress notification before the response is parsed in its place. -/
theorem notification_hides_response :
    ¬ FindsResponse twoTextParser ("data: ".toList ++ progressNotification ++
      "\n\ndata: ".toList ++ emptyResponse ++ "\n\n".toList) := by
  intro h
  -- the response is the only event that reads as one
  have hevent : SoleEvent twoTextParser ("data: ".toList ++ progressNotification ++
      "\n\ndata: ".toList ++ emptyResponse ++ "\n\n".toList)
      ⟨"2.0", .num "1", some (.obj []), none⟩ := by
    refine ⟨[progressNotification], emptyResponse, [], by decide +kernel, rfl, ?_⟩
    intro other hother
    rw [List.append_nil, List.mem_singleton] at hother
    rw [hother]
    exact twoTextParser_notification
  have hsend := h (fun _ => .ok ⟨200, .ok _⟩) ⟨"2.0", .num "1", "tools/list", none⟩ 200 _ rfl rfl
    (.inr hevent)
  -- but the text taken is that of the first data line
  have hjson : jsonStr ("data: ".toList ++ progressNotification ++ "\n\ndata: ".toList ++
      emptyResponse ++ "\n\n".toList) = progressNotification := by decide +kernel
  rw [send_eq_ok rfl rfl, hjson] at hsend
  exact twoTextParser_notification _ hsend

end Barqium.Native.McpClient
