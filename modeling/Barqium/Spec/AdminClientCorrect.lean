import Mathlib
import Barqium.Native.AdminClient

/-!
# Upstreams between admin client and control API

The client names the target of an upstream `base_url`, the control API `url`. Go's
decoder ignores a member it does not know and leaves the field empty, and the
client's cast gives an undefined property, so neither side fails.

## Key results

- `upstreamFormats_agree_iff`: which bodies and rows arrive as they were sent
-/

namespace Barqium.Native.AdminClient

open ControlApi

/-- The decoded timeout is the number that was sent. -/
def SameTimeout : Option JsNumber → Option Int32 → Prop
  | none, none => True
  | some (.integer n), some t => t.toInt = n
  | _, _ => False

/-- The number can arrive as an `int32`. -/
def FitsInt32 : Option JsNumber → Prop
  | none => True
  | some (.integer n) => -2147483648 ≤ n ∧ n < 2147483648
  | some _ => False

/-- The request struct has the name, the target URL, the timeout and the flag that
    the body has; an absent text is the empty one. -/
def SameUpstream (name baseUrl : Option String) (timeoutMs : Option JsNumber)
    (enabled : Option Bool) (req : CreateUpstreamRequest) : Prop :=
  req.name = name.getD "" ∧ req.url = baseUrl.getD "" ∧
    SameTimeout timeoutMs req.timeoutMs ∧ req.enabled = enabled

/-- Decoding the body of a creation gives the same upstream. -/
def CreateArrives (r : Request) (body : CreateUpstreamBody) : Prop :=
  ∃ req, decodeBody CreateUpstreamRequest.set {} { r with body := some body.toJson } = .ok req ∧
    SameUpstream (some body.name) (some body.baseUrl) body.timeoutMs body.enabled req

/-- Decoding the body of a patch gives the same fields. -/
def UpdateArrives (r : Request) (body : UpdateUpstreamBody) : Prop :=
  ∃ req : UpdateUpstreamRequest,
    decodeBody CreateUpstreamRequest.set {} { r with body := some body.toJson } = .ok req ∧
    SameUpstream body.name body.baseUrl body.timeoutMs body.enabled req

/-- The client reads the target URL of a stored upstream. -/
def ClientReads (text : GoText) (u : ControlApi.Upstream) : Prop :=
  (Upstream.ofJson (upstreamJson text u)).baseUrl = some (.str u.url)

/-! ## What the decoder makes of a body -/

/-- What Go decodes a timeout to; none is an error. -/
def decodeTimeout (timeoutMs : Option JsNumber) : Option (Option Int32) :=
  match timeoutMs with
  | none => some none
  | some n => goPointer goInt32 n.toJson

section

variable (req : CreateUpstreamRequest)

/-- The handler takes the name. -/
private theorem set_name (s : String) :
    req.set (foldName "name") (.str s) = some { req with name := s } :=
  rfl

private theorem set_baseUrl (v : Json) : req.set (foldName "base_url") v = some req := rfl

/-- The handler takes a timeout that is an `int32`. -/
private theorem set_timeoutMs (v : Json) : req.set (foldName "timeout_ms") v =
    (goPointer goInt32 v).map fun t => { req with timeoutMs := t } := rfl

/-- The handler takes the switch `enabled`. -/
private theorem set_enabled (b : Bool) :
    req.set (foldName "enabled") (.bool b) = some { req with enabled := some b } := rfl

end

/-- The name, the timeout and the flag are decoded, the target is dropped. -/
private theorem decodeBody_stringify (r : Request) (name baseUrl : Option String)
    (timeoutMs : Option JsNumber) (enabled : Option Bool) :
    decodeBody CreateUpstreamRequest.set {}
        { r with body := some (stringifyUpstream name baseUrl timeoutMs enabled) } =
      match decodeTimeout timeoutMs with
      | some t => .ok ⟨name.getD "", "", t, enabled⟩
      | none => .error (writeError 400 "invalid request body") := by
  unfold decodeBody stringifyUpstream decodeTimeout
  cases timeoutMs with
  | none =>
    cases name <;> cases baseUrl <;> cases enabled <;>
      simp [member, set_name, set_baseUrl, set_enabled]
  | some n =>
    -- a number that is no `int32` is an error of the whole body
    cases hn : goPointer goInt32 n.toJson <;> cases name <;> cases baseUrl <;> cases enabled <;>
      simp [member, set_name, set_baseUrl, set_timeoutMs, set_enabled, hn]

/-- Go reads the digits of an integer that fits, and no other number. -/
theorem goInt32_integer (n : Int) : goInt32 (.num n.repr) =
    if -2147483648 ≤ n ∧ n < 2147483648 then some (Int32.ofInt n) else none := by
  -- this fact about the digits of a number is in scope only with Mathlib as a whole
  simp only [goInt32, goInteger, Int.toInt?_repr]
  by_cases h : -2147483648 ≤ n ∧ n < 2147483648
  · rw [if_pos h, Option.filter_some_pos (by simpa using h)]
    rfl
  · rw [if_neg h, Option.filter_some_neg (by simpa using h)]
    rfl

/-- A timeout arrives as it was sent exactly if it fits an `int32`. -/
theorem decodeTimeout_same_iff (timeoutMs : Option JsNumber) :
    (∃ t, decodeTimeout timeoutMs = some t ∧ SameTimeout timeoutMs t) ↔ FitsInt32 timeoutMs := by
  cases timeoutMs with
  | none => exact ⟨fun _ => trivial, fun _ => ⟨none, rfl, trivial⟩⟩
  | some number =>
    cases number with
    | integer n =>
      have hdecode : decodeTimeout (some (.integer n)) =
          (goInt32 (.num n.repr)).map some := rfl
      rw [hdecode, goInt32_integer]
      show _ ↔ -2147483648 ≤ n ∧ n < 2147483648
      by_cases h : -2147483648 ≤ n ∧ n < 2147483648
      · rw [if_pos h]
        refine ⟨fun _ => h, fun _ => ⟨some (Int32.ofInt n), rfl, ?_⟩⟩
        exact Int32.toInt_ofInt_of_le h.1 h.2
      · rw [if_neg h]
        exact ⟨(fun ⟨_, hnone, _⟩ => nomatch hnone), fun hfits => absurd hfits h⟩
    | decimal literal hliteral =>
      -- a literal that is not an integer is an error
      have hdecode : decodeTimeout (some (.decimal literal hliteral)) = none := by
        simp [decodeTimeout, JsNumber.toJson, goPointer, goInt32, goInteger, hliteral]
      rw [hdecode]
      exact ⟨(fun ⟨_, hnone, _⟩ => nomatch hnone), fun hfits => False.elim hfits⟩
    | nonFinite =>
      -- null is read as an absent timeout
      exact ⟨fun ⟨_, _, hsame⟩ => False.elim hsame, fun hfits => False.elim hfits⟩

/-- A body arrives exactly when it names no target and its timeout fits. -/
theorem arrives_iff (r : Request) (name baseUrl : Option String) (timeoutMs : Option JsNumber)
    (enabled : Option Bool) :
    (∃ req, decodeBody CreateUpstreamRequest.set {}
        { r with body := some (stringifyUpstream name baseUrl timeoutMs enabled) } = .ok req ∧
      SameUpstream name baseUrl timeoutMs enabled req) ↔
      baseUrl.getD "" = "" ∧ FitsInt32 timeoutMs := by
  rw [decodeBody_stringify, ← decodeTimeout_same_iff]
  cases decodeTimeout timeoutMs with
  | none => simp
  | some t =>
    simp only [Except.ok.injEq, exists_eq_left', SameUpstream, Option.some.injEq, true_and,
      and_true]
    exact and_congr_left' eq_comm

/-! ## The two formats -/

/-- A creation arrives as it was sent only with an empty target URL, a patch only
    without one, both with a timeout that is absent or an `int32`; and the target
    URL of a stored upstream never arrives at the client. -/
theorem upstreamFormats_agree_iff (r : Request) (text : GoText) :
    (∀ body : CreateUpstreamBody,
      CreateArrives r body ↔ body.baseUrl = "" ∧ FitsInt32 body.timeoutMs) ∧
    (∀ body : UpdateUpstreamBody,
      UpdateArrives r body ↔ body.baseUrl.getD "" = "" ∧ FitsInt32 body.timeoutMs) ∧
    ∀ u : ControlApi.Upstream, ¬ ClientReads text u := by
  refine ⟨fun body => ?_, fun body => ?_, fun u hreads => ?_⟩
  · exact arrives_iff r (some body.name) (some body.baseUrl) body.timeoutMs body.enabled
  · exact arrives_iff r body.name body.baseUrl body.timeoutMs body.enabled
  · -- the row has no member `base_url`
    have hundefined : (Upstream.ofJson (upstreamJson text u)).baseUrl = none := rfl
    unfold ClientReads at hreads
    rw [hundefined] at hreads
    exact nomatch hreads

/-- The body of a creation form: its target URL is decoded as the empty text. And
    the client finds no target URL in the row of such an upstream. -/
theorem created_upstream_has_no_target :
    (∀ r, ¬ CreateArrives r
      ⟨"backend", "http://backend.example", some (.integer 5000), some true⟩) ∧
    ∀ text, ¬ ClientReads text ⟨1, 2, "backend", "http://backend.example", 5000, true, 0, 0⟩ := by
  refine ⟨fun r h => ?_, fun text h => nomatch h⟩
  obtain ⟨req, hreq, -, hurl, -⟩ := h
  rw [CreateUpstreamBody.toJson, decodeBody_stringify] at hreq
  split at hreq
  · cases hreq
    have hempty : "" = "http://backend.example" := hurl
    exact absurd hempty (by decide)
  · exact nomatch hreq

end Barqium.Native.AdminClient
