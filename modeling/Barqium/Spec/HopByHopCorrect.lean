import Barqium.ForStd.FieldList
import Barqium.Native.ProxyService
import Barqium.Spec.WasmPluginCorrect

/-!
# Hop-by-hop headers

A header is hop-by-hop if it is one of a fixed list, or if a `Connection` header of the
message names it. The forwarder strips the list only.

## Key results

- `getAll_stripHopByHop`: what is left of a header.
- `stripsHopByHop_iff`: when the forwarder strips all hop-by-hop headers and no other
-/

namespace Barqium.Native

/-- The bytes that `to_str` accepts. -/
def isVisibleAscii (c : Char) : Bool := (' ' ≤ c && c < '\x7f') || c = '\t'

/-- The bytes of a header value, each as the character with its code. -/
structure HeaderBytes (http : Http) where
  asBytes : http.HeaderValue → List Char
  toStr_eq : ∀ value, http.toStr value =
    if (asBytes value).all isVisibleAscii then some (String.ofList (asBytes value)) else none

variable {http : Http}

namespace HeaderMap

/-- The values of the header with this name. -/
def values (headers : HeaderMap http) (name : String) : List http.HeaderValue :=
  ((http.nameFromBytes name).map headers.getAll).getD []

/-- The elements of all lines of a header, in lower case. -/
def tokens (bytes : HeaderBytes http) (headers : HeaderMap http) (name : String) :
    List (List Char) :=
  (headers.values name).flatMap fun value =>
    (FieldList.elements (bytes.asBytes value)).map (List.map Char.toLower)

@[simp] theorem getAll_remove_self (headers : HeaderMap http) (name : http.HeaderName) :
    (headers.remove name).getAll name = [] := by
  simp [getAll, remove]

/-- Removing one name leaves the others. -/
private theorem getAll_remove_of_ne (headers : HeaderMap http) {name other : http.HeaderName}
    (h : name ≠ other) : (headers.remove other).getAll name = headers.getAll name := by
  simp [getAll, remove, Finmap.lookup_erase_ne h]

end HeaderMap

/-- A `Connection` header names the header. -/
def Nominated (bytes : HeaderBytes http) (headers : HeaderMap http) (name : http.HeaderName) :
    Prop :=
  (http.asStr name).toList ∈ headers.tokens bytes "connection"

/-- No hop-by-hop header is left, and every other header has its values. -/
def StripsHopByHop (bytes : HeaderBytes http) (headers stripped : HeaderMap http) : Prop :=
  ∀ name,
    (http.asStr name ∈ hopByHop ∨ Nominated bytes headers name → stripped.getAll name = []) ∧
    (http.asStr name ∉ hopByHop ∧ ¬ Nominated bytes headers name →
      stripped.getAll name = headers.getAll name)

/-! ## The list -/

/-- Names of the list are in lower case. -/
private theorem asciiLower_of_mem_hopByHop : ∀ name ∈ hopByHop, asciiLower name = name := by
  decide

/-- Removing many names leaves the values of all others. -/
private theorem getAll_foldl_remove (names : List String) (hlower : ∀ k ∈ names, asciiLower k = k)
    (headers : HeaderMap http) (name : http.HeaderName) :
    (names.foldl (fun hs k => (http.nameFromBytes k).elim hs hs.remove) headers).getAll name =
      if http.asStr name ∈ names then [] else headers.getAll name := by
  -- the names are removed one after the other
  induction names generalizing headers with
  | nil => rfl
  | cons k names ih =>
    obtain ⟨hk, hlower⟩ := List.forall_mem_cons.mp hlower
    rw [List.foldl_cons, ih hlower]
    by_cases hmem : http.asStr name ∈ names
    · rw [if_pos hmem, if_pos (List.mem_cons_of_mem k hmem)]
    · rw [if_neg hmem]
      by_cases heq : http.asStr name = k
      · -- the name that is removed now
        subst heq
        rw [if_pos List.mem_cons_self, http.nameFromBytes_asStr]
        exact headers.getAll_remove_self name
      · rw [if_neg (by simp [heq, hmem])]
        cases hparse : http.nameFromBytes k with
        | none => rfl
        | some other =>
          refine headers.getAll_remove_of_ne fun hname => heq ?_
          rw [hname, http.asStr_nameFromBytes k other hparse, hk]

/-- The headers of the list are gone, and all the others are as they were. -/
theorem getAll_stripHopByHop (headers : HeaderMap http) (name : http.HeaderName) :
    (stripHopByHop headers).getAll name =
      if http.asStr name ∈ hopByHop then [] else headers.getAll name :=
  getAll_foldl_remove hopByHop asciiLower_of_mem_hopByHop headers name

/-! ## Nominated headers -/

/-- The hop-by-hop headers are stripped exactly if those which the request names itself are
    of the list, or are not in the request. -/
theorem stripsHopByHop_iff (bytes : HeaderBytes http) (headers : HeaderMap http) :
    StripsHopByHop bytes headers (stripHopByHop headers) ↔
      ∀ name, Nominated bytes headers name →
        http.asStr name ∈ hopByHop ∨ headers.getAll name = [] := by
  simp only [StripsHopByHop, getAll_stripHopByHop]
  refine forall_congr' fun name => ?_
  by_cases hmem : http.asStr name ∈ hopByHop
  · simp [hmem]
  · simp [hmem]

/-- Header values as they are on the wire. -/
def byteHttp : Http :=
  { WasmPlugin.asciiHttp with
    HeaderValue := List Char
    toStr := fun value =>
      if value.all isVisibleAscii then some (String.ofList value) else none
    valueFromStr := fun s => some s.toList
    valueFromStr_toStr := by
      intro value s h
      obtain ⟨-, h⟩ := Option.ite_none_right_eq_some.mp h
      cases h
      simp }

def byteHttpBytes : HeaderBytes byteHttp := ⟨id, fun _ => rfl⟩

def byteHttpName (name : String) (h : byteHttp.nameFromBytes name ≠ none) : byteHttp.HeaderName :=
  (byteHttp.nameFromBytes name).get (Option.isSome_iff_ne_none.mpr h)

def traceName : byteHttp.HeaderName := byteHttpName "X-Trace" (by decide)

def connectionName : byteHttp.HeaderName := byteHttpName "Connection" (by decide)

/-- A request that names one of its own headers. -/
def tracedHeaders : HeaderMap byteHttp :=
  ((∅ : HeaderMap byteHttp).insert connectionName "close, X-Trace".toList).insert traceName
    "7".toList

/-- The header is forwarded. -/
theorem nominated_header_forwarded :
    ¬ ∀ (http : Http) (bytes : HeaderBytes http) (headers : HeaderMap http),
      StripsHopByHop bytes headers (stripHopByHop headers) := by
  intro h
  have hnominated : Nominated byteHttpBytes tracedHeaders traceName := by
    unfold Nominated
    decide +kernel
  have hgone := (h byteHttp byteHttpBytes tracedHeaders traceName).1 (.inr hnominated)
  rw [getAll_stripHopByHop] at hgone
  revert hgone
  decide

end Barqium.Native
