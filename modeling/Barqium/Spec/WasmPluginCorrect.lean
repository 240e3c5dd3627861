import Barqium.ForStd.WriteLog
import Barqium.Native.WasmPlugin

/-!
# Headers across a plugin call

A plugin sees the headers as a map from strings to strings. The map is built from
the last textual value of every name, the host calls write it under the exact
spelling they use, and the write-back inserts every entry into the header map. So
the string map is a log of keyed writes (`ForStd.WriteLog`), and so is the header
map that is written back.

## Key results

- `lookup_headerMapToStrings`: what a plugin sees of a name.
- `preserves_untouched_iff`: a name the plugin does not touch keeps its values exactly
  when it has at most one, or none that is text.
- `takesEffect_iff`: the operations on a name take effect in every walk of the string
  map exactly when no other spelling of the name is left with another value, and,
  for a removal, when there was nothing to remove.
-/

namespace Barqium.Native.WasmPlugin

open Finmap (Walk)

variable {http : Http}

instance : Nonempty (Orders http) :=
  ⟨⟨fun _ => Classical.choice inferInstance, fun _ => Classical.choice inferInstance⟩⟩

/-! ## Writes on the string map -/

/-- The write of a host call on the string map. -/
def HostCall.headerWrite (c : HostCall) : Option (String × Option String) :=
  match c.fn with
  | .setHeader kptr klen vptr vlen =>
    some (readStr c.memory kptr klen, some (readStr c.memory vptr vlen))
  | .removeHeader ptr len => some (readStr c.memory ptr len, none)
  | _ => none

/-- The effect of a host call on a key is its header write there. -/
theorem effect_headerWrite {c : HostCall} {k : String} {w : Option String} :
    WriteLog.effect HostCall.headerWrite k c = some w ↔ c.headerWrite = some (k, w) := by
  unfold WriteLog.effect
  cases c.headerWrite with
  | none => simp
  | some w' =>
    obtain ⟨k', w'⟩ := w'
    simp

/-- A host call acts on the headers as its write. -/
private theorem headers_hostCall (s : HostState) (c : HostCall) :
    (hostCall s c).2.headers = WriteLog.apply HostCall.headerWrite s.headers c := by
  obtain ⟨memory, fn⟩ := c
  cases fn <;> rfl

/-- The headers after the calls are the replay of their writes. -/
theorem headers_runCalls (s : HostState) (calls : List HostCall) :
    (runCalls s calls).headers = WriteLog.replay HostCall.headerWrite s.headers calls := by
  induction calls using List.reverseRecOn with
  | nil => rfl
  | append_singleton calls c ih =>
    rw [WriteLog.replay_concat, ← ih, ← headers_hostCall]
    simp [runCalls]

/-! ## What a plugin sees -/

/-- The values of a name that are text. -/
def visible (headers : HeaderMap http) (name : http.HeaderName) : List String :=
  (headers.getAll name).filterMap http.toStr

/-- Collecting a pair writes its key. -/
def pairWrite (p : String × String) : Option (String × Option String) := some (p.1, some p.2)

/-- The map built from pairs is the replay of their insertions. -/
private theorem collect_eq_replay (pairs : List (String × String)) :
    collect pairs = WriteLog.replay pairWrite ∅ pairs := rfl

/-- Header names with one text are one name. -/
private theorem asStr_injective {a b : http.HeaderName} (h : http.asStr a = http.asStr b) :
    a = b := by
  have ha := http.nameFromBytes_asStr a
  rw [h, http.nameFromBytes_asStr] at ha
  exact (Option.some.inj ha).symm

/-- The pairs of one name write its last textual value. -/
private theorem lastWrite_values (name : http.HeaderName) (vs : List http.HeaderValue) :
    WriteLog.lastWrite pairWrite (http.asStr name)
        (vs.filterMap fun v => (http.toStr v).map fun s => (http.asStr name, s)) =
      (vs.filterMap http.toStr).getLast?.map some := by
  induction vs using List.reverseRecOn with
  | nil => rfl
  | append_singleton vs v ih =>
    rw [List.filterMap_append, List.filterMap_append, WriteLog.lastWrite_append, ih]
    cases hv : http.toStr v with
    | none => simp [hv, WriteLog.lastWrite]
    | some s => simp [hv, WriteLog.lastWrite, WriteLog.effect, pairWrite]

/-- The pairs of other names do not write a name. -/
private theorem lastWrite_headerStrings_of_not_mem {name : http.HeaderName}
    {entries : List (http.HeaderName × { vs : List http.HeaderValue // vs ≠ [] })}
    (h : name ∉ entries.map Prod.fst) :
    WriteLog.lastWrite pairWrite (http.asStr name) (headerStrings entries) = none := by
  rw [WriteLog.lastWrite_eq_none_iff]
  intro p hp
  simp only [headerStrings, List.mem_flatMap, List.mem_filterMap, Option.map_eq_some_iff] at hp
  obtain ⟨e, he, v, -, s, -, rfl⟩ := hp
  have hne : http.asStr e.1 ≠ http.asStr name := by
    intro heq
    exact h (asStr_injective heq ▸ List.mem_map_of_mem he)
  simp [WriteLog.effect, pairWrite, hne]

/-- The last insertion under a name is its last textual value. -/
private theorem lastWrite_headerStrings {name : http.HeaderName}
    {entries : List (http.HeaderName × { vs : List http.HeaderValue // vs ≠ [] })}
    (hnodup : (entries.map Prod.fst).Nodup) {vs : { vs : List http.HeaderValue // vs ≠ [] }}
    (h : (name, vs) ∈ entries) :
    WriteLog.lastWrite pairWrite (http.asStr name) (headerStrings entries) =
      (vs.val.filterMap http.toStr).getLast?.map some := by
  -- by the first name of the map
  induction entries with
  | nil => cases h
  | cons e entries ih =>
    have hcons : headerStrings (e :: entries) =
        (e.2.val.filterMap fun v => (http.toStr v).map fun s => (http.asStr e.1, s)) ++
          headerStrings entries := by simp [headerStrings]
    rw [List.map_cons, List.nodup_cons] at hnodup
    rw [hcons, WriteLog.lastWrite_append]
    rcases List.mem_cons.mp h with rfl | h
    · rw [lastWrite_headerStrings_of_not_mem hnodup.1, Option.none_or, lastWrite_values]
    · -- the first name is another one, so only the rest counts
      have hne : name ∉ [e].map Prod.fst := by
        intro hmem
        rw [List.map_singleton, List.mem_singleton] at hmem
        exact hnodup.1 (hmem ▸ List.mem_map_of_mem h)
      have hfirst := lastWrite_headerStrings_of_not_mem hne
      have hsingle : headerStrings [e] =
          e.2.val.filterMap fun v => (http.toStr v).map fun s => (http.asStr e.1, s) := by
        simp [headerStrings]
      rw [hsingle] at hfirst
      rw [hfirst, Option.or_none]
      exact ih hnodup.2 h

/-- The plugin sees the last textual value of a name, whatever the order of the walk. -/
theorem lookup_headerMapToStrings (headers : HeaderMap http) (walk : Walk headers)
    (name : http.HeaderName) :
    (headerMapToStrings headers walk).lookup (http.asStr name) =
      (visible headers name).getLast? := by
  unfold headerMapToStrings
  rw [collect_eq_replay, WriteLog.lookup_replay, Finmap.lookup_empty]
  -- a name the map does not have, or one with values
  cases hlookup : headers.lookup name with
  | none =>
    have hnot : name ∉ walk.val.map Prod.fst := by
      intro hmem
      obtain ⟨⟨n, vs⟩, hentry, rfl⟩ := List.mem_map.mp hmem
      rw [(Finmap.mem_walk walk).mp hentry] at hlookup
      cases hlookup
    rw [lastWrite_headerStrings_of_not_mem hnot]
    simp [visible, HeaderMap.getAll, hlookup]
  | some vs =>
    have hmem := (Finmap.mem_walk walk).mpr hlookup
    rw [lastWrite_headerStrings (Finmap.nodup_walk walk) hmem]
    simp only [visible, HeaderMap.getAll, hlookup, Option.map_some, Option.getD_some]
    cases (vs.val.filterMap http.toStr).getLast? <;> rfl

/-- Every key the plugin finds is a name. -/
private theorem exists_name_of_lookup {headers : HeaderMap http} {walk : Walk headers}
    {k s : String}
    (h : (headerMapToStrings headers walk).lookup k = some s) : ∃ name, k = http.asStr name := by
  by_contra hnot
  -- no entry of the map is for a key that is no name
  have hnone : WriteLog.lastWrite pairWrite k (headerStrings walk.val) = none := by
    rw [WriteLog.lastWrite_eq_none_iff]
    intro p hp
    simp only [headerStrings, List.mem_flatMap, List.mem_filterMap, Option.map_eq_some_iff] at hp
    obtain ⟨e, -, v, -, s', -, rfl⟩ := hp
    have hne : http.asStr e.1 ≠ k := fun heq => hnot ⟨e.1, heq.symm⟩
    simp [WriteLog.effect, pairWrite, hne]
  unfold headerMapToStrings at h
  rw [collect_eq_replay, WriteLog.lookup_replay, Finmap.lookup_empty, hnone] at h
  cases h

/-! ## The write-back -/

/-- The write of one pair on the header map. -/
def insertWrite (p : String × String) :
    Option (http.HeaderName × Option { vs : List http.HeaderValue // vs ≠ [] }) :=
  match http.nameFromBytes p.1, http.valueFromStr p.2 with
  | some name, some value => some (name, some ⟨[value], List.cons_ne_nil value []⟩)
  | _, _ => none

/-- Inserting a pair into the rebuilt headers is a write. -/
private theorem insertString_eq_apply (out : HeaderMap http) (p : String × String) :
    insertString out p = WriteLog.apply insertWrite out p := by
  unfold insertString WriteLog.apply insertWrite
  cases http.nameFromBytes p.1 with
  | none => rfl
  | some name => cases http.valueFromStr p.2 <;> rfl

/-- The write of a pair acts on a name if its key is a form of the name and its value a header
    value. -/
private theorem effect_insertWrite {name : http.HeaderName} {p : String × String}
    {w : Option { vs : List http.HeaderValue // vs ≠ [] }} :
    WriteLog.effect insertWrite name p = some w ↔
      http.nameFromBytes p.1 = some name ∧
        ∃ value, http.valueFromStr p.2 = some value ∧ w = some ⟨[value], by simp⟩ := by
  unfold WriteLog.effect insertWrite
  cases hname : http.nameFromBytes p.1 with
  | none => simp
  | some n =>
    cases hvalue : http.valueFromStr p.2 with
    | none => simp
    | some v =>
      -- a pair acts on its own name only
      by_cases hn : n = name
      · simp [hn, eq_comm]
      · simp [hn]

/-- The values of a name after the write-back: the value of the last entry that is
    spelled like the name, or what they were. -/
theorem getAll_stringsToHeaderMap (map : HashMap String) (walk : Walk map)
    (out : HeaderMap http) (name : http.HeaderName) :
    ((∀ k s value, map.lookup k = some s → http.nameFromBytes k = some name →
        http.valueFromStr s ≠ some value) ∧
      (stringsToHeaderMap map walk out).getAll name = out.getAll name) ∨
    ∃ k s value, map.lookup k = some s ∧ http.nameFromBytes k = some name ∧
      http.valueFromStr s = some value ∧
      (stringsToHeaderMap map walk out).getAll name = [value] := by
  -- writing back is a replay of insertions
  have hreplay : stringsToHeaderMap map walk out = WriteLog.replay insertWrite out walk.val := by
    unfold stringsToHeaderMap WriteLog.replay
    congr 1
    funext out p
    exact insertString_eq_apply out p
  rw [hreplay]
  unfold HeaderMap.getAll
  rw [WriteLog.lookup_replay]
  cases hw : WriteLog.lastWrite insertWrite name walk.val with
  | none =>
    left
    refine ⟨fun k s value hk hname hvalue => ?_, rfl⟩
    have hnone := (WriteLog.lastWrite_eq_none_iff _).mp hw (k, s) ((Finmap.mem_walk walk).mpr hk)
    have hsome := effect_insertWrite.mpr
      (show http.nameFromBytes (k, s).1 = some name ∧ _ from ⟨hname, value, hvalue, rfl⟩)
    rw [hnone] at hsome
    cases hsome
  | some w =>
    right
    obtain ⟨pre, ⟨k, s⟩, post, hsplit, heffect, -⟩ := WriteLog.lastWrite_eq_some _ hw
    obtain ⟨hname, value, hvalue, rfl⟩ := effect_insertWrite.mp heffect
    have hmem : (k, s) ∈ walk.val := by rw [hsplit]; simp
    exact ⟨k, s, value, (Finmap.mem_walk walk).mp hmem, hname, hvalue, rfl⟩

/-! ## Names the plugin does not touch -/

/-- The call sets or removes a header that is spelled like `name` in some case. -/
def HostCall.Touches (c : HostCall) (name : http.HeaderName) : Prop :=
  ∃ k w, c.headerWrite = some (k, w) ∧ http.nameFromBytes k = some name

namespace Execution

/-- The host calls of the plugin. -/
def calls : Execution → List HostCall
  | instantiateFails _ | noExport => []
  | traps calls _ => calls
  | returns calls _ => calls

/-- The export ran to its end. -/
def Returned : Execution → Prop
  | returns _ _ => True
  | _ => False

end Execution

/-- What the plugin starts with at a spelling of a name. -/
private theorem lookup_start (orders : Orders http) (headers : HeaderMap http)
    (vars : HashMap String)
    {name : http.HeaderName} {k : String} (hk : http.nameFromBytes k = some name) :
    (startState orders headers vars).headers.lookup k =
      if k = http.asStr name then (visible headers name).getLast? else none := by
  by_cases heq : k = http.asStr name
  · rw [if_pos heq, heq]
    exact lookup_headerMapToStrings headers _ name
  · rw [if_neg heq]
    cases hlookup : (startState orders headers vars).headers.lookup k with
    | none => rfl
    | some s =>
      -- every key of the map is the text of a name
      obtain ⟨other, rfl⟩ := exists_name_of_lookup hlookup
      rw [http.nameFromBytes_asStr] at hk
      exact absurd (by rw [Option.some.inj hk]) heq

/-- What is left of a string map at a spelling of a name that no call touches. -/
theorem lookup_untouched {orders : Orders http} {headers : HeaderMap http}
    {vars : HashMap String} {calls : List HostCall} {name : http.HeaderName}
    (h : ∀ c ∈ calls, ¬ c.Touches name) {k : String} (hk : http.nameFromBytes k = some name) :
    (runCalls (startState orders headers vars) calls).headers.lookup k =
      if k = http.asStr name then (visible headers name).getLast? else none := by
  have hnone : WriteLog.lastWrite HostCall.headerWrite k calls = none := by
    rw [WriteLog.lastWrite_eq_none_iff]
    intro c hc
    by_contra hsome
    obtain ⟨w, hw⟩ := Option.ne_none_iff_exists'.mp hsome
    exact h c hc ⟨k, w, effect_headerWrite.mp hw, hk⟩
  rw [headers_runCalls, WriteLog.lookup_replay, hnone, Option.getD_none]
  exact lookup_start orders headers vars hk

/-- The last textual value of a name is the text of one of its values. -/
private theorem exists_value_of_visible {headers : HeaderMap http} {name : http.HeaderName}
    {s : String} (h : (visible headers name).getLast? = some s) :
    ∃ value ∈ headers.getAll name,
      http.toStr value = some s ∧ http.valueFromStr s = some value := by
  have hmem : s ∈ visible headers name := List.mem_of_getLast? h
  obtain ⟨value, hvalue, hstr⟩ := List.mem_filterMap.mp hmem
  exact ⟨value, hvalue, hstr, http.valueFromStr_toStr value s hstr⟩

/-- The conversion to strings and back keeps the values of the name. -/
def Survives (headers : HeaderMap http) (name : http.HeaderName) : Prop :=
  (headers.getAll name).length ≤ 1 ∨ ∀ value ∈ headers.getAll name, http.toStr value = none

/-- A name no host call touches keeps its values if the export fails or they survive. -/
theorem getAll_callExport_untouched (orders : Orders http) (headers : HeaderMap http)
    (vars : HashMap String) (e : Execution) (name : http.HeaderName)
    (h : ∀ c ∈ e.calls, ¬ c.Touches name) :
    (callExport orders headers vars e).2.1.getAll name = headers.getAll name ↔
      ¬ e.Returned ∨ Survives headers name := by
  -- only an export that returns writes back
  cases e with
  | instantiateFails message => simp [callExport, Execution.Returned]
  | noExport => simp [callExport, Execution.Returned]
  | traps calls message => simp [callExport, Execution.Returned]
  | returns calls code =>
    simp only [Execution.Returned, not_true_eq_false, false_or]
    have hlookup := @lookup_untouched http orders headers vars calls name h
    rcases getAll_stringsToHeaderMap (runCalls (startState orders headers vars) calls).headers
      (orders.strings _) headers name with ⟨hnone, heq⟩ | ⟨k, s, value, hk, hname, hvalue, heq⟩
    · -- nothing was written back, so no value of the name is text
      refine ⟨fun _ => .inr fun value hmem => ?_, fun _ => heq⟩
      by_contra hstr
      obtain ⟨s, hs⟩ := Option.ne_none_iff_exists'.mp hstr
      have hne : visible headers name ≠ [] :=
        List.ne_nil_of_mem (List.mem_filterMap.mpr ⟨value, hmem, hs⟩)
      obtain ⟨last, hlast⟩ := Option.isSome_iff_exists.mp (List.getLast?_isSome.mpr hne)
      obtain ⟨v, -, -, hfrom⟩ := exists_value_of_visible hlast
      have hself := hlookup (http.nameFromBytes_asStr name)
      rw [if_pos rfl, hlast] at hself
      exact hnone _ last v hself (http.nameFromBytes_asStr name) hfrom
    · -- the last textual value is now the only one
      have hlast : (visible headers name).getLast? = some s := by
        rw [hlookup hname] at hk
        split at hk
        · exact hk
        · cases hk
      obtain ⟨v, hmem, hstr, hfrom⟩ := exists_value_of_visible hlast
      have hv : v = value := by
        rw [hvalue] at hfrom
        exact (Option.some.inj hfrom).symm
      subst hv
      change (stringsToHeaderMap _ _ headers).getAll name = _ ↔ _
      rw [heq]
      constructor
      · intro hvalues
        left
        rw [← hvalues]
        simp
      · rintro (hlen | hall)
        · obtain ⟨a, ha⟩ := List.length_eq_one_iff.mp
            (Nat.le_antisymm hlen (List.length_pos_of_mem hmem))
          rw [ha, List.mem_singleton] at hmem
          rw [ha, hmem]
        · rw [hall v hmem] at hstr
          cases hstr

/-- A name that the plugin does not touch, in any spelling, keeps its values exactly
    when the export did not run to its end or the name survives the conversion. -/
theorem preserves_untouched_iff (orders : Orders http) (e : Execution) (name : http.HeaderName)
    (h : ∀ c ∈ e.calls, ¬ c.Touches name) :
    (∀ ctx : RequestContext http,
      (callOnRequest orders e ctx).2.headers.getAll name = ctx.headers.getAll name ↔
        ¬ e.Returned ∨ Survives ctx.headers name) ∧
    ∀ ctx : ResponseContext http,
      (callOnResponse orders e ctx).2.headers.getAll name = ctx.headers.getAll name ↔
        ¬ e.Returned ∨ Survives ctx.headers name :=
  ⟨fun ctx => getAll_callExport_untouched orders ctx.headers ctx.vars e name h,
    fun ctx => getAll_callExport_untouched orders ctx.headers ctx.vars e name h⟩

/-! ## Header types for concrete headers -/

/-- A name is a token in lower case; a value is visible ASCII text or opaque bytes. -/
def asciiHttp : Http where
  HeaderName := { n : String // asciiLower n = n ∧ n ≠ "" ∧
    n.toList.all fun c => c.isAlphanum || c = '-' || c = '_' }
  decEq := inferInstance
  asStr := Subtype.val
  nameFromBytes k :=
    if h : asciiLower (asciiLower k) = asciiLower k ∧ asciiLower k ≠ "" ∧
      (asciiLower k).toList.all fun c => c.isAlphanum || c = '-' || c = '_' then
      some ⟨asciiLower k, h⟩
    else none
  nameFromBytes_asStr name := by
    obtain ⟨n, hlower, hvalid⟩ := name
    simp [hlower, hvalid]
  asStr_nameFromBytes k name h := by
    split at h
    · cases h
      rfl
    · cases h
  HeaderValue := { s : String // s.toList.all fun c => ' ' ≤ c && c ≤ '~' } ⊕ List UInt8
  toStr
    | .inl s => some s.val
    | .inr _ => none
  valueFromStr s :=
    if h : s.toList.all fun c => ' ' ≤ c && c ≤ '~' then some (.inl ⟨s, h⟩) else none
  valueFromStr_toStr value s h := by
    cases value with
    | inl text =>
      cases h
      exact dif_pos text.property
    | inr bytes => cases h

/-- A plugin that sets another header keeps a name with one value. -/
theorem preserves_untouched_iff_single :
    let memory : List UInt8 := [0x78, 0x2d, 0x61, 0x31]
    let calls : List HostCall := [⟨some memory, .setHeader 0 3 3 1⟩]
    let host : asciiHttp.HeaderName := ⟨"host", by decide⟩
    let value : asciiHttp.HeaderValue := .inl ⟨"example.com", by decide⟩
    let ctx : RequestContext asciiHttp :=
      ⟨"GET", "/", (∅ : HeaderMap asciiHttp).insert host value, ∅⟩
    (∀ c ∈ calls, c.headerWrite = some ("x-a", some "1")) ∧
      ∃ orders, (callOnRequest orders (.returns calls 0) ctx).2.headers.getAll host =
        ctx.headers.getAll host := by
  intro memory calls host value ctx
  have hwrite : ∀ c ∈ calls, c.headerWrite = some ("x-a", some "1") := by decide
  obtain ⟨orders⟩ : Nonempty (Orders asciiHttp) := inferInstance
  -- the plugin sets another header
  have huntouched : ∀ c ∈ (Execution.returns calls 0).calls, ¬ c.Touches host := by
    rintro c hc ⟨k, w, hk, hname⟩
    rw [hwrite c hc] at hk
    cases hk
    exact absurd hname (by decide)
  have hone : ctx.headers.getAll host = [value] := by simp [ctx, HeaderMap.getAll, HeaderMap.insert]
  refine ⟨hwrite, orders, ?_⟩
  refine ((preserves_untouched_iff orders (.returns calls 0) host huntouched).1 ctx).mpr
    (.inr (.inl ?_))
  rw [hone]
  rfl

/-- A plugin without host calls drops the first of two cookies. -/
theorem second_cookie_survives_alone :
    let cookie : asciiHttp.HeaderName := ⟨"set-cookie", by decide⟩
    let first : asciiHttp.HeaderValue := .inl ⟨"a=1", by decide⟩
    let second : asciiHttp.HeaderValue := .inl ⟨"b=2", by decide⟩
    let ctx : ResponseContext asciiHttp :=
      ⟨200, Finmap.insert cookie ⟨[first, second], by simp⟩ ∅, ∅⟩
    ∃ orders, (callOnResponse orders (.returns [] 0) ctx).2.headers.getAll cookie ≠
      ctx.headers.getAll cookie := by
  intro cookie first second ctx
  obtain ⟨orders⟩ : Nonempty (Orders asciiHttp) := inferInstance
  have htwo : ctx.headers.getAll cookie = [first, second] := by simp [ctx, HeaderMap.getAll]
  refine ⟨orders, fun h => ?_⟩
  -- with two values the name does not survive
  have hiff := getAll_callExport_untouched orders ctx.headers ctx.vars (.returns [] 0) cookie
    (by simp [Execution.calls])
  rcases hiff.mp h with hreturned | hlen | htext
  · exact hreturned trivial
  · rw [htwo] at hlen
    simp at hlen
  · have hnone := htext first (by rw [htwo]; simp)
    cases hnone

/-! ## Names the plugin touches -/

/-- The operation of a call on a header, with its name read without regard to case. -/
def HostCall.nameOp (c : HostCall) : Option (http.HeaderName × Option String) :=
  c.headerWrite.bind fun w => (http.nameFromBytes w.1).map fun name => (name, w.2)

/-- A host call operates on a name through some form of it. -/
private theorem nameOp_eq_some {c : HostCall} {name : http.HeaderName} {w : Option String} :
    c.nameOp = some (name, w) ↔
      ∃ k, c.headerWrite = some (k, w) ∧ http.nameFromBytes k = some name := by
  unfold HostCall.nameOp
  constructor
  · intro h
    obtain ⟨⟨k, w'⟩, hwrite, hmap⟩ := Option.bind_eq_some_iff.mp h
    obtain ⟨n, hn, heq⟩ := Option.map_eq_some_iff.mp hmap
    cases heq
    exact ⟨k, hwrite, hn⟩
  · rintro ⟨k, hwrite, hn⟩
    simp [hwrite, hn]

/-- Its effect on the name is the write under that form. -/
private theorem effect_nameOp {c : HostCall} {name : http.HeaderName} {w : Option String} :
    WriteLog.effect HostCall.nameOp name c = some w ↔
      ∃ k, c.headerWrite = some (k, w) ∧ http.nameFromBytes k = some name := by
  rw [← nameOp_eq_some]
  unfold WriteLog.effect
  cases (c.nameOp : Option (http.HeaderName × Option String)) with
  | none => simp
  | some w' =>
    obtain ⟨n, w'⟩ := w'
    simp

/-- The call applied directly to a header map. -/
def applyDirectly (headers : HeaderMap http) (c : HostCall) : HeaderMap http :=
  match (c.nameOp : Option (http.HeaderName × Option String)) with
  | some (name, some s) =>
    match http.valueFromStr s with
    | some value => headers.insert name value
    | none => headers
  | some (name, none) => headers.remove name
  | none => headers

/-- Every name and value the calls use is a valid one. -/
def ValidCalls (http : Http) (calls : List HostCall) : Prop :=
  ∀ c ∈ calls, ∀ k w, c.headerWrite = some (k, w) →
    (http.nameFromBytes k).isSome ∧ ∀ s, w = some s → (http.valueFromStr s).isSome

/-- The last operation on a name: the value it sets, or its removal. -/
def lastOp (calls : List HostCall) (name : http.HeaderName) : Option (Option String) :=
  WriteLog.lastWrite HostCall.nameOp name calls

/-- What is left under a spelling of the name when the export returns. -/
def leftUnder (headers : HeaderMap http) (calls : List HostCall) (name : http.HeaderName)
    (k : String) : Option String :=
  (WriteLog.lastWrite HostCall.headerWrite k calls).getD
    (if k = http.asStr name then (visible headers name).getLast? else none)

/-- If the last operation on the name sets it, nothing with another value is left
    under any spelling; if it removes it, nothing is left, and the name was absent. -/
structure Agrees (headers : HeaderMap http) (calls : List HostCall) (name : http.HeaderName) :
    Prop where
  set : ∀ s, lastOp calls name = some (some s) → ∀ k s', http.nameFromBytes k = some name →
    leftUnder headers calls name k = some s' → http.valueFromStr s' = http.valueFromStr s
  removed : lastOp calls name = some none → headers.getAll name = [] ∧
    ∀ k, http.nameFromBytes k = some name → leftUnder headers calls name k = none

/-- What the map holds under a form of the name after the calls. -/
theorem lookup_runCalls (orders : Orders http) (headers : HeaderMap http) (vars : HashMap String)
    (calls : List HostCall) {name : http.HeaderName} {k : String}
    (hk : http.nameFromBytes k = some name) :
    (runCalls (startState orders headers vars) calls).headers.lookup k =
      leftUnder headers calls name k := by
  rw [headers_runCalls, WriteLog.lookup_replay, lookup_start orders headers vars hk]
  rfl

/-- Applying the calls directly gives what the last operation on a name says. -/
private theorem getAll_applyDirectly (headers : HeaderMap http) {calls : List HostCall}
    (hvalid : ValidCalls http calls) (name : http.HeaderName) :
    (calls.foldl applyDirectly headers).getAll name =
      match lastOp calls name with
      | some (some s) => (http.valueFromStr s).toList
      | some none => []
      | none => headers.getAll name := by
  -- by the last call
  induction calls using List.reverseRecOn with
  | nil => rfl
  | append_singleton calls c ih =>
    have ih := ih fun c hc => hvalid c (List.mem_append_left _ hc)
    have hlast : lastOp (calls ++ [c]) name =
        (WriteLog.effect HostCall.nameOp name c).or (lastOp calls name) :=
      WriteLog.lastWrite_concat _ name calls c
    rw [List.foldl_concat, hlast]
    generalize calls.foldl applyDirectly headers = hs at ih ⊢
    unfold WriteLog.effect applyDirectly
    cases hop : (c.nameOp : Option (http.HeaderName × Option String)) with
    | none => simpa using ih
    | some op =>
      obtain ⟨n, w⟩ := op
      obtain ⟨k, hwrite, -⟩ := nameOp_eq_some.mp hop
      obtain ⟨-, hvalue⟩ := hvalid c (by simp) k w hwrite
      by_cases hn : n = name
      · subst hn
        cases w with
        | none => simp [HeaderMap.getAll, HeaderMap.remove]
        | some s =>
          obtain ⟨v, hv⟩ := Option.isSome_iff_exists.mp (hvalue s rfl)
          simp [hv, HeaderMap.getAll, HeaderMap.insert]
      · cases w with
        | none =>
          have hother : (hs.remove n).getAll name = hs.getAll name := by
            simp [HeaderMap.getAll, HeaderMap.remove, Finmap.lookup_erase_ne (Ne.symm hn)]
          simpa [hn, hother] using ih
        | some s =>
          obtain ⟨v, hv⟩ := Option.isSome_iff_exists.mp (hvalue s rfl)
          have hother : (hs.insert n v).getAll name = hs.getAll name := by
            simp [HeaderMap.getAll, HeaderMap.insert, Finmap.lookup_insert_of_ne _ (Ne.symm hn)]
          simpa [hn, hv, hother] using ih

/-- The last operation on a name that sets it leaves its value under its spelling. -/
private theorem exists_left_of_lastOp (headers : HeaderMap http) {calls : List HostCall}
    {name : http.HeaderName} {s : String} (h : lastOp calls name = some (some s)) :
    ∃ k, http.nameFromBytes k = some name ∧ leftUnder headers calls name k = some s := by
  obtain ⟨pre, c, post, rfl, heffect, hpost⟩ := WriteLog.lastWrite_eq_some _ h
  -- the spelling of the last operation
  obtain ⟨k, hwrite, hk⟩ := effect_nameOp.mp heffect
  -- a later write under this spelling would be a later operation on the name
  have hlater : WriteLog.lastWrite HostCall.headerWrite k post = none := by
    rw [WriteLog.lastWrite_eq_none_iff]
    intro c' hc'
    by_contra hsome
    obtain ⟨w, hw⟩ := Option.ne_none_iff_exists'.mp hsome
    have hop := effect_nameOp.mpr ⟨k, effect_headerWrite.mp hw, hk⟩
    rw [hpost c' hc'] at hop
    cases hop
  refine ⟨k, hk, ?_⟩
  unfold leftUnder
  rw [← List.singleton_append, ← List.append_assoc, WriteLog.lastWrite_append, hlater,
    WriteLog.lastWrite_concat, effect_headerWrite.mpr hwrite]
  rfl

/-- What is left under a spelling of a name is a valid value. -/
private theorem valid_of_left {headers : HeaderMap http} {calls : List HostCall}
    (hvalid : ValidCalls http calls) {name : http.HeaderName} {k s : String}
    (h : leftUnder headers calls name k = some s) : ∃ value, http.valueFromStr s = some value := by
  unfold leftUnder at h
  -- left from before, or written by a call
  cases hw : WriteLog.lastWrite HostCall.headerWrite k calls with
  | none =>
    rw [hw, Option.getD_none] at h
    split at h
    · obtain ⟨value, -, -, hfrom⟩ := exists_value_of_visible h
      exact ⟨value, hfrom⟩
    · cases h
  | some w =>
    rw [hw, Option.getD_some] at h
    subst h
    obtain ⟨pre, c, post, rfl, heffect, -⟩ := WriteLog.lastWrite_eq_some _ hw
    have hsome := (hvalid c (by simp) k _ (effect_headerWrite.mp heffect)).2 s rfl
    exact Option.isSome_iff_exists.mp hsome

/-- Orders in which the loop over a given map visits a given entry last. -/
private theorem exists_orders_last (orders : Orders http) {map : HashMap String} {k s : String}
    (h : map.lookup k = some s) :
    ∃ orders' : Orders http, orders'.headers = orders.headers ∧
      ∃ before, (orders'.strings map).val = before ++ [(k, s)] := by
  classical
  obtain ⟨walk, before, hwalk⟩ := Finmap.exists_walk_last h
  refine ⟨⟨orders.headers, Function.update orders.strings map walk⟩, rfl, before, ?_⟩
  simp only [Function.update_self]
  exact hwalk

/-- The entry visited last by the write-back is the one whose value stays. -/
private theorem getAll_of_last {map : HashMap String} {walk : Walk map} (out : HeaderMap http)
    {before : List (String × String)} {k s : String} (hwalk : walk.val = before ++ [(k, s)])
    {name : http.HeaderName} {value : http.HeaderValue} (hname : http.nameFromBytes k = some name)
    (hvalue : http.valueFromStr s = some value) :
    (stringsToHeaderMap map walk out).getAll name = [value] := by
  unfold stringsToHeaderMap
  rw [hwalk, List.foldl_concat]
  simp [insertString, hname, hvalue, HeaderMap.getAll, HeaderMap.insert]

/-- Every name the calls touch ends with the values it has when the calls are applied
    directly to the headers. -/
def TakesEffect (headers after : HeaderMap http) (calls : List HostCall) : Prop :=
  ∀ name, (∃ c ∈ calls, c.Touches name) →
    after.getAll name = (calls.foldl applyDirectly headers).getAll name

/-- A touched name has a last operation. -/
private theorem lastOp_ne_none {calls : List HostCall} {name : http.HeaderName}
    (h : ∃ c ∈ calls, c.Touches name) : lastOp calls name ≠ none := by
  obtain ⟨c, hc, k, w, hwrite, hk⟩ := h
  intro hnone
  have heffect := effect_nameOp.mpr ⟨k, hwrite, hk⟩
  rw [(WriteLog.lastWrite_eq_none_iff _).mp hnone c hc] at heffect
  cases heffect

/-- Names that agree take effect in every order of the walks. -/
private theorem takesEffect_of_agrees (orders : Orders http) {headers : HeaderMap http}
    {vars : HashMap String} {calls : List HostCall} (code : Int32)
    (hvalid : ValidCalls http calls)
    (h : ∀ name : http.HeaderName, (∃ c ∈ calls, c.Touches name) → Agrees headers calls name) :
    TakesEffect headers (callExport orders headers vars (.returns calls code)).2.1 calls := by
  intro name htouched
  have hagrees := h name htouched
  rw [getAll_applyDirectly headers hvalid]
  change (stringsToHeaderMap _ _ headers).getAll name = _
  -- what writing back leaves under the name
  have hwriteBack := getAll_stringsToHeaderMap
    (runCalls (startState orders headers vars) calls).headers (orders.strings _) headers name
  have hlookup : ∀ {k}, http.nameFromBytes k = some name →
      (runCalls (startState orders headers vars) calls).headers.lookup k =
        leftUnder headers calls name k := fun hk => lookup_runCalls orders headers vars calls hk
  cases hlast : lastOp calls name with
  | none => exact absurd hlast (lastOp_ne_none htouched)
  | some w =>
    cases w with
    | some s =>
      obtain ⟨value, hvalue⟩ : ∃ value, http.valueFromStr s = some value := by
        obtain ⟨k, -, hk⟩ := exists_left_of_lastOp headers hlast
        exact valid_of_left hvalid hk
      simp only [hvalue, Option.toList_some]
      rcases hwriteBack with ⟨hnone, -⟩ | ⟨k, s', v, hk, hname, hv, heq⟩
      · -- the last operation itself was written back
        obtain ⟨k, hk, hleft⟩ := exists_left_of_lastOp headers hlast
        exact absurd hvalue (hnone k s value ((hlookup hk).trans hleft) hk)
      · rw [heq]
        have hleft : leftUnder headers calls name k = some s' := (hlookup hname).symm.trans hk
        have hsame := hagrees.set s hlast k s' hname hleft
        rw [hv, hvalue] at hsame
        rw [Option.some.inj hsame]
    | none =>
      obtain ⟨habsent, hleft⟩ := hagrees.removed hlast
      rcases hwriteBack with ⟨-, heq⟩ | ⟨k, s', v, hk, hname, -, -⟩
      · rw [heq, habsent]
      · rw [hlookup hname, hleft k hname] at hk
        cases hk

/-- Names on which the calls take effect in every order of the walks agree. -/
private theorem agrees_of_takesEffect {headers : HeaderMap http} (vars : HashMap String)
    {calls : List HostCall} (code : Int32) (hvalid : ValidCalls http calls)
    (h : ∀ orders, TakesEffect headers
      (callExport orders headers vars (.returns calls code)).2.1 calls)
    (name : http.HeaderName) (htouched : ∃ c ∈ calls, c.Touches name) :
    Agrees headers calls name := by
  obtain ⟨orders⟩ : Nonempty (Orders http) := inferInstance
  -- whatever is left under a spelling may be written back last
  have hleft : ∀ {k s'}, http.nameFromBytes k = some name →
      leftUnder headers calls name k = some s' → ∃ value, http.valueFromStr s' = some value ∧
        (calls.foldl applyDirectly headers).getAll name = [value] := by
    intro k s' hname hk
    obtain ⟨value, hvalue⟩ := valid_of_left hvalid hk
    have hlookup := lookup_runCalls orders headers vars calls hname
    rw [hk] at hlookup
    obtain ⟨orders', hheaders, before, hlast⟩ := exists_orders_last orders hlookup
    have hstart : startState orders' headers vars = startState orders headers vars := by
      unfold startState
      rw [hheaders]
    have hafter := h orders' name htouched
    simp only [callExport] at hafter
    rw [hstart, getAll_of_last headers hlast hname hvalue] at hafter
    exact ⟨value, hvalue, hafter.symm⟩
  rw [getAll_applyDirectly headers hvalid] at hleft
  refine ⟨fun s hlast k s' hname hk => ?_, fun hlast => ?_⟩
  · obtain ⟨value, hvalue, hdirect⟩ := hleft hname hk
    rw [hlast] at hdirect
    rw [hvalue]
    cases hs : http.valueFromStr s with
    | none => simp [hs] at hdirect
    | some v =>
      simp only [hs, Option.toList_some, List.singleton_inj] at hdirect
      rw [hdirect]
  · simp only [hlast] at hleft
    have hnone : ∀ k, http.nameFromBytes k = some name → leftUnder headers calls name k = none := by
      intro k hname
      cases hk : leftUnder headers calls name k with
      | none => rfl
      | some s' =>
        obtain ⟨value, -, hdirect⟩ := hleft hname hk
        cases hdirect
    refine ⟨?_, hnone⟩
    -- nothing is written back, so the name keeps the values it had
    have hafter := h orders name htouched
    rw [getAll_applyDirectly headers hvalid, hlast] at hafter
    simp only [callExport] at hafter
    rcases getAll_stringsToHeaderMap (runCalls (startState orders headers vars) calls).headers
      (orders.strings _) headers name with ⟨-, heq⟩ | ⟨k, s', -, hk, hname, -, -⟩
    · exact heq.symm.trans hafter
    · rw [lookup_runCalls orders headers vars calls hname, hnone k hname] at hk
      cases hk

/-- Valid header operations of an export that returns take effect in every order of
    the walks exactly when every name they touch agrees. -/
theorem takesEffect_iff (calls : List HostCall) (code : Int32) (hvalid : ValidCalls http calls) :
    (∀ ctx : RequestContext http,
      (∀ orders, TakesEffect ctx.headers
        (callOnRequest orders (.returns calls code) ctx).2.headers calls) ↔
        ∀ name, (∃ c ∈ calls, c.Touches name) → Agrees ctx.headers calls name) ∧
    ∀ ctx : ResponseContext http,
      (∀ orders, TakesEffect ctx.headers
        (callOnResponse orders (.returns calls code) ctx).2.headers calls) ↔
        ∀ name, (∃ c ∈ calls, c.Touches name) → Agrees ctx.headers calls name := by
  constructor
  · intro ctx
    exact ⟨agrees_of_takesEffect ctx.vars code hvalid,
      fun h orders => takesEffect_of_agrees orders code hvalid h⟩
  · intro ctx
    exact ⟨agrees_of_takesEffect ctx.vars code hvalid,
      fun h orders => takesEffect_of_agrees orders code hvalid h⟩

/-- A plugin sets a header that was not there. -/
theorem takesEffect_iff_set :
    let memory : List UInt8 := [0x78, 0x2d, 0x61, 0x31]
    let calls : List HostCall := [⟨some memory, .setHeader 0 3 3 1⟩]
    let ctx : RequestContext asciiHttp := ⟨"GET", "/", ∅, ∅⟩
    ∃ orders, TakesEffect ctx.headers
      (callOnRequest orders (.returns calls 0) ctx).2.headers calls := by
  intro memory calls ctx
  have hwrite : ∀ c ∈ calls, c.headerWrite = some ("x-a", some "1") := by decide
  obtain ⟨orders⟩ : Nonempty (Orders asciiHttp) := inferInstance
  -- the call sets a valid name to a valid value
  have hvalid : ValidCalls asciiHttp calls := by
    intro c hc k w hw
    rw [hwrite c hc] at hw
    cases hw
    refine ⟨by decide, fun s hs => ?_⟩
    cases hs
    decide
  refine ⟨orders, ((takesEffect_iff calls 0 hvalid).1 ctx).mpr (fun name _ => ?_) orders⟩
  -- whatever the calls write at all, they write the value 1
  have hlastOp : ∀ w, lastOp calls name = some w → w = some "1" := by
    intro w hlast
    obtain ⟨pre, c, post, hsplit, heffect, -⟩ := WriteLog.lastWrite_eq_some _ hlast
    obtain ⟨k, hk, -⟩ := effect_nameOp.mp heffect
    rw [hwrite c (by rw [hsplit]; simp)] at hk
    cases hk
    rfl
  -- and leaves nothing else in the map
  have hleft : ∀ k s, leftUnder ctx.headers calls name k = some s → s = "1" := by
    intro k s hk
    unfold leftUnder at hk
    cases hlast : WriteLog.lastWrite HostCall.headerWrite k calls with
    | none => simp [hlast, visible, HeaderMap.getAll, ctx] at hk
    | some w =>
      rw [hlast] at hk
      obtain ⟨pre, c, post, hsplit, heffect, -⟩ := WriteLog.lastWrite_eq_some _ hlast
      have hc := effect_headerWrite.mp heffect
      rw [hwrite c (by rw [hsplit]; simp)] at hc
      cases hc
      cases hk
      rfl
  refine ⟨fun s hlast k s' _ hk => ?_, fun hlast => ?_⟩
  · rw [hleft k s' hk, Option.some.inj (hlastOp _ hlast)]
  · cases hlastOp _ hlast

/-- A plugin removes a header, and the header is still there. -/
theorem removed_header_stays :
    let memory : List UInt8 := [0x78, 0x2d, 0x61]
    let calls : List HostCall := [⟨some memory, .removeHeader 0 3⟩]
    let name : asciiHttp.HeaderName := ⟨"x-a", by decide⟩
    let value : asciiHttp.HeaderValue := .inl ⟨"1", by decide⟩
    let ctx : RequestContext asciiHttp :=
      ⟨"GET", "/", (∅ : HeaderMap asciiHttp).insert name value, ∅⟩
    ValidCalls asciiHttp calls ∧ ¬ ∀ orders, TakesEffect ctx.headers
      (callOnRequest orders (.returns calls 0) ctx).2.headers calls := by
  intro memory calls name value ctx
  have hwrite : ∀ c ∈ calls, c.headerWrite = some ("x-a", none) := by decide
  have hvalid : ValidCalls asciiHttp calls := by
    intro c hc k w hw
    rw [hwrite c hc] at hw
    cases hw
    refine ⟨by decide, fun s hs => ?_⟩
    cases hs
  refine ⟨hvalid, fun h => ?_⟩
  -- the call removes the name
  have htouched : ∃ c ∈ calls, c.Touches name :=
    ⟨_, List.mem_singleton.mpr rfl, "x-a", none, hwrite _ (List.mem_singleton.mpr rfl), by decide⟩
  have hagrees := agrees_of_takesEffect ctx.vars 0 hvalid h name htouched
  -- which had a value before
  have habsent := (hagrees.removed (by decide)).1
  simp [ctx, HeaderMap.getAll, HeaderMap.insert] at habsent

end Barqium.Native.WasmPlugin
