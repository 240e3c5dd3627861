import Barqium.Native.PluginChain
import Barqium.Spec.WasmPluginCorrect

/-!
# Values passed between plugins

A value that a plugin sets is an entry of the host state, and variables go from one plugin of a
chain to the next. What reads an entry returns its length. The host does not write to the memory of
the plugin, so a plugin gets the length of a value and never its bytes.

## Key results

- `vars_step`: the variables of any host call of a chain are a log of the writes before it.
- `readsBack_iff`: when a plugin gets a value that was set before
-/

namespace Barqium.Native.WasmPlugin

variable {http : Http}

/-! ## Writes on the variables -/

/-- The write of a host call on the variables. -/
def HostCall.varWrite (c : HostCall) : Option (String × Option String) :=
  match c.fn with
  | .setVar kptr klen vptr vlen =>
    some (readStr c.memory kptr klen, some (readStr c.memory vptr vlen))
  | _ => none

/-- A host call writes the variables as its write says. -/
private theorem vars_hostCall (s : HostState) (c : HostCall) :
    (hostCall s c).2.vars = WriteLog.apply HostCall.varWrite s.vars c := by
  obtain ⟨memory, fn⟩ := c
  cases fn <;> rfl

/-- A list of host calls writes the variables as their writes say. -/
private theorem vars_runCalls (s : HostState) (calls : List HostCall) :
    (runCalls s calls).vars = WriteLog.replay HostCall.varWrite s.vars calls := by
  induction calls generalizing s with
  | nil => rfl
  | cons c calls ih =>
    have hstep : runCalls s (c :: calls) = runCalls (hostCall s c).2 calls := rfl
    rw [hstep, ih, vars_hostCall]
    rfl

/-! ## The steps of a chain -/

/-- A step of one plugin has the state that the calls before it leave. -/
private theorem of_stepsOf {plugin : Nat} {returned : Bool} {s : HostState} {calls : List HostCall}
    {before after : List Step} {step : Step}
    (h : stepsOf plugin returned s calls = before ++ step :: after) :
    step.plugin = plugin ∧ step.returned = returned ∧
      step.state = runCalls s (before.map Step.call) := by
  induction calls generalizing s before with
  | nil => simp [stepsOf] at h
  | cons c calls ih =>
    -- the first step has nothing before it
    cases before with
    | nil =>
      cases h
      exact ⟨rfl, rfl, rfl⟩
    | cons first before =>
      rw [stepsOf, List.cons_append, List.cons.injEq] at h
      obtain ⟨rfl, h⟩ := h
      obtain ⟨hplugin, hreturned, hstate⟩ := ih h
      exact ⟨hplugin, hreturned, hstate⟩

/-- The steps of a plugin are its own. -/
private theorem mem_stepsOf {plugin : Nat} {returned : Bool} {s : HostState} {calls : List HostCall}
    {step : Step} (h : step ∈ stepsOf plugin returned s calls) :
    step.plugin = plugin ∧ step.returned = returned := by
  obtain ⟨before, after, hsplit⟩ := List.append_of_mem h
  obtain ⟨hplugin, hreturned, -⟩ := of_stepsOf hsplit
  exact ⟨hplugin, hreturned⟩

/-- The steps of a plugin are its calls in order. -/
private theorem map_call_stepsOf (plugin : Nat) (returned : Bool) (s : HostState)
    (calls : List HostCall) : (stepsOf plugin returned s calls).map Step.call = calls := by
  induction calls generalizing s with
  | nil => rfl
  | cons c calls ih => rw [stepsOf, List.map_cons, ih]

/-- The steps of the first plugin, and those of the rest if the chain goes on. -/
private theorem chainSteps_cons (orders : Orders http) (plugin : Nat) (t : Turn) (turns : List Turn)
    (ctx : RequestContext http) :
    chainSteps orders plugin (t :: turns) ctx =
      stepsOf plugin t.returned (startState orders ctx.headers ctx.vars) t.calls ++
        if goesOn (callOnRequest orders t.execution ctx).1 then
          chainSteps orders (plugin + 1) turns (callOnRequest orders t.execution ctx).2
        else [] :=
  rfl

/-- The plugins of a chain have increasing positions. -/
private theorem le_plugin_of_mem (orders : Orders http) {plugin : Nat} {turns : List Turn}
    {ctx : RequestContext http} {step : Step} (h : step ∈ chainSteps orders plugin turns ctx) :
    plugin ≤ step.plugin := by
  induction turns generalizing plugin ctx with
  | nil => cases h
  | cons t turns ih =>
    rw [chainSteps_cons] at h
    generalize callOnRequest orders t.execution ctx = called at h
    rcases List.mem_append.mp h with hown | hrest
    · exact Nat.le_of_eq (mem_stepsOf hown).1.symm
    · -- the chain goes on to the next plugin, or ends
      split at hrest
      · exact Nat.le_of_succ_le (ih hrest)
      · cases hrest

/-- A step of a chain belongs to the first plugin, or to the rest of the chain, which goes on. -/
private theorem split_chainSteps {orders : Orders http} {plugin : Nat} {t : Turn}
    {turns : List Turn} {ctx : RequestContext http} {before after : List Step} {get : Step}
    (h : chainSteps orders plugin (t :: turns) ctx = before ++ get :: after) :
    (∃ rest, stepsOf plugin t.returned (startState orders ctx.headers ctx.vars) t.calls =
      before ++ get :: rest) ∨
    ∃ earlier, before =
        stepsOf plugin t.returned (startState orders ctx.headers ctx.vars) t.calls ++ earlier ∧
      goesOn (callOnRequest orders t.execution ctx).1 = true ∧
      chainSteps orders (plugin + 1) turns (callOnRequest orders t.execution ctx).2 =
        earlier ++ get :: after := by
  rw [chainSteps_cons] at h
  rcases List.append_eq_append_iff.mp h with ⟨earlier, hbefore, hrest⟩ | ⟨rest, hown, hrest⟩
  · right
    split at hrest
    · rename_i hgoes
      exact ⟨earlier, hbefore, hgoes, hrest⟩
    · simp at hrest
  · cases rest with
    | nil =>
      -- the cut lies between the two plugins
      right
      rw [List.append_nil] at hown
      rw [List.nil_append] at hrest
      split at hrest
      · rename_i hgoes
        exact ⟨[], by rw [hown, List.append_nil], hgoes, hrest.symm⟩
      · cases hrest
    | cons first rest =>
      left
      obtain ⟨rfl, -⟩ := List.cons.inj hrest
      exact ⟨rest, hown⟩

/-- The steps whose writes a call sees: those of its own plugin, and those of the plugins whose
export returned. -/
def seenBy (get : Step) (before : List Step) : List HostCall :=
  (before.filter fun s => s.returned || s.plugin = get.plugin).map Step.call

/-- The earlier steps of the plugin itself. -/
def ownBefore (get : Step) (before : List Step) : List HostCall :=
  (before.filter fun s => s.plugin = get.plugin).map Step.call

/-- The variables after the turn of a plugin. -/
private theorem vars_callOnRequest (orders : Orders http) (t : Turn) (ctx : RequestContext http) :
    (callOnRequest orders t.execution ctx).2.vars =
      if t.returned then WriteLog.replay HostCall.varWrite ctx.vars t.calls else ctx.vars := by
  unfold callOnRequest callExport Turn.returned Turn.calls
  cases t.execution with
  | instantiateFails message => rfl
  | noExport => rfl
  | traps calls message => rfl
  | returns calls code => exact vars_runCalls _ calls

/-- A host call of a chain: its state comes from a first state by the earlier calls of the
plugin, and its variables are a log of the writes that it sees. -/
theorem vars_step (orders : Orders http) {plugin : Nat} {turns : List Turn}
    {ctx : RequestContext http} {before after : List Step} {get : Step}
    (h : chainSteps orders plugin turns ctx = before ++ get :: after) :
    (∃ start, get.state = runCalls start (ownBefore get before)) ∧
      get.state.vars = WriteLog.replay HostCall.varWrite ctx.vars (seenBy get before) := by
  -- by the plugin whose turn holds the call
  induction turns generalizing plugin ctx before with
  | nil => simp [chainSteps] at h
  | cons t turns ih =>
    rcases split_chainSteps h with ⟨rest, hown⟩ | ⟨earlier, rfl, -, hrest⟩
    · -- all steps before the call are of the same plugin
      obtain ⟨hplugin, -, hstate⟩ := of_stepsOf hown
      have hsame : ∀ s ∈ before, s.plugin = get.plugin := by
        intro s hs
        rw [hplugin]
        exact (mem_stepsOf (hown ▸ List.mem_append_left _ hs)).1
      have hownBefore : ownBefore get before = before.map Step.call := by
        unfold ownBefore
        rw [List.filter_eq_self.mpr fun s hs => by simpa using hsame s hs]
      have hseen : seenBy get before = before.map Step.call := by
        unfold seenBy
        rw [List.filter_eq_self.mpr fun s hs => by simp [hsame s hs]]
      rw [hownBefore, hseen]
      refine ⟨⟨_, hstate⟩, ?_⟩
      rw [hstate, vars_runCalls]
      rfl
    · -- the first plugin is another one, and counts if its export returned
      obtain ⟨⟨start, hstate⟩, hlog⟩ := ih hrest
      have hlater : plugin + 1 ≤ get.plugin :=
        le_plugin_of_mem orders (hrest ▸ List.mem_append_right _ List.mem_cons_self)
      have hother : ∀ s ∈ stepsOf plugin t.returned (startState orders ctx.headers ctx.vars)
          t.calls, s.plugin ≠ get.plugin ∧ s.returned = t.returned := by
        intro s hs
        obtain ⟨hplugin, hreturned⟩ := mem_stepsOf hs
        exact ⟨by omega, hreturned⟩
      have hownBefore : ownBefore get (stepsOf plugin t.returned
          (startState orders ctx.headers ctx.vars) t.calls ++ earlier) = ownBefore get earlier := by
        unfold ownBefore
        rw [List.filter_append, List.filter_eq_nil_iff.mpr fun s hs => by simp [(hother s hs).1],
          List.nil_append]
      have hseen : seenBy get (stepsOf plugin t.returned
          (startState orders ctx.headers ctx.vars) t.calls ++ earlier) =
            (if t.returned then t.calls else []) ++ seenBy get earlier := by
        unfold seenBy
        rw [List.filter_append, List.map_append]
        congr 1
        split
        · rename_i hreturned
          rw [List.filter_eq_self.mpr fun s hs => by simp [(hother s hs).2, hreturned],
            map_call_stepsOf]
        · rename_i hreturned
          rw [List.filter_eq_nil_iff.mpr fun s hs => by
              simp [(hother s hs).1, (hother s hs).2, hreturned], List.map_nil]
      rw [hownBefore, hseen]
      refine ⟨⟨start, hstate⟩, ?_⟩
      rw [hlog, vars_callOnRequest, WriteLog.replay_append]
      cases t.returned <;> rfl

/-! ## Reading back -/

/-- `set` writes the value under the key, and up to the later call `get` no call writes the key
again. -/
def SetBefore (write : HostCall → Option (String × Option String)) (steps : List Step)
    (set get : Step) (k v : String) : Prop :=
  ∃ before mid after, steps = before ++ set :: (mid ++ get :: after) ∧
    write set.call = some (k, some v) ∧ ∀ s ∈ mid, ∀ w, write s.call ≠ some (k, w)

def Step.ReadsVar (s : Step) (k : String) : Prop :=
  ∃ ptr len, s.call.fn = .getVar ptr len ∧ readStr s.call.memory ptr len = k

def Step.ReadsHeader (s : Step) (k : String) : Prop :=
  ∃ ptr len, s.call.fn = .getHeader ptr len ∧ readStr s.call.memory ptr len = k

/-- A variable that is read gives its length. -/
theorem Step.ReadsVar.result {s : Step} {k : String} (h : s.ReadsVar k) :
    s.result = some (lengthOrMissing s.state.vars k) := by
  obtain ⟨ptr, len, hfn, rfl⟩ := h
  unfold Step.result hostCall
  rw [hfn]

/-- A header that is read gives its length. -/
theorem Step.ReadsHeader.result {s : Step} {k : String} (h : s.ReadsHeader k) :
    s.result = some (lengthOrMissing s.state.headers k) := by
  obtain ⟨ptr, len, hfn, rfl⟩ := h
  unfold Step.result hostCall
  rw [hfn]

/-- The bytes of a string in UTF-8. -/
def utf8Bytes (v : String) : List UInt8 := v.toUTF8.data.toList

/-- The call gives the plugin the length of the value, and writes its bytes to a place in the
memory. -/
def Delivers (get : Step) (v : String) : Prop :=
  (∃ n, get.result = some n ∧ n.toInt = v.utf8ByteSize) ∧
    ∃ address, ∀ i b, (utf8Bytes v)[i]? = some b → (address + i, b) ∈ get.memoryWrites

private theorem length_utf8Bytes (v : String) : (utf8Bytes v).length = v.utf8ByteSize := by
  simp [utf8Bytes]

/-- There is a length to give for an entry whose size is that length, up to the cast. -/
theorem result_eq_length_iff {get : Step} {entries : HashMap String} {k : String} {n : Nat}
    (hresult : get.result = some (lengthOrMissing entries k)) :
    (∃ r, get.result = some r ∧ r.toInt = n) ↔
      n < 2 ^ 31 ∧ ∃ w, entries.lookup k = some w ∧ w.utf8ByteSize % 2 ^ 32 = n := by
  unfold lengthOrMissing at hresult
  rw [hresult]
  cases hlookup : entries.lookup k with
  | none =>
    -- -1 is no length
    constructor
    · rintro ⟨r, hr, hlength⟩
      cases hr
      have hminus : (-1 : Int32).toInt = -1 := rfl
      rw [hminus] at hlength
      omega
    · rintro ⟨-, w, hw, -⟩
      cases hw
  | some w =>
    -- the length is narrowed to 32 bits with a sign
    have hnarrow : (Int32.ofNat w.utf8ByteSize).toInt = n ↔
        n < 2 ^ 31 ∧ w.utf8ByteSize % 2 ^ 32 = n := by
      rw [Int32.toInt_ofNat', Int.bmod_def]
      show (if (w.utf8ByteSize : Int) % 4294967296 < (4294967296 + 1) / 2 then
        (w.utf8ByteSize : Int) % 4294967296
        else (w.utf8ByteSize : Int) % 4294967296 - 4294967296) = _ ↔ _
      split <;> omega
    constructor
    · rintro ⟨r, hr, hlength⟩
      cases hr
      obtain ⟨hshort, hmod⟩ := hnarrow.mp hlength
      exact ⟨hshort, w, rfl, hmod⟩
    · rintro ⟨hshort, w', hw', hmod⟩
      cases hw'
      exact ⟨_, rfl, hnarrow.mpr ⟨hshort, hmod⟩⟩

/-- Only of an empty value are all bytes written. -/
theorem delivers_iff {get : Step} {entries : HashMap String} {k v : String}
    (hresult : get.result = some (lengthOrMissing entries k)) :
    Delivers get v ↔
      v = "" ∧ ∃ w, entries.lookup k = some w ∧ w.utf8ByteSize % 2 ^ 32 = 0 := by
  unfold Delivers
  rw [result_eq_length_iff hresult]
  constructor
  · rintro ⟨⟨-, hentry⟩, address, hwrites⟩
    have hempty : utf8Bytes v = [] := by
      cases hbytes : utf8Bytes v with
      | nil => rfl
      | cons b bytes =>
        -- the first byte would have to be written
        have hfirst := hwrites 0 b (by rw [hbytes]; rfl)
        simp [Step.memoryWrites] at hfirst
    have hsize : v.utf8ByteSize = 0 := by rw [← length_utf8Bytes, hempty]; rfl
    rw [hsize] at hentry
    exact ⟨String.utf8ByteSize_eq_zero_iff.mp hsize, hentry⟩
  · rintro ⟨rfl, hentry⟩
    exact ⟨⟨by decide, hentry⟩, 0, by simp [utf8Bytes]⟩

/-- If the entry is the value itself, an empty value is delivered. -/
private theorem delivers_iff_of_entry {get : Step} {entries : HashMap String} {k v : String}
    (hresult : get.result = some (lengthOrMissing entries k)) (hentry : entries.lookup k = some v) :
    Delivers get v ↔ v = "" := by
  rw [delivers_iff hresult]
  constructor
  · exact And.left
  · rintro rfl
    exact ⟨rfl, "", hentry, rfl⟩

/-- What a log holds of a key that was set and not written again. -/
private theorem lookup_of_set {write : HostCall → Option (String × Option String)}
    {m : HashMap String}
    {before mid : List HostCall} {c : HostCall} {k v : String} (hset : write c = some (k, some v))
    (hmid : ∀ d ∈ mid, ∀ w, write d ≠ some (k, w)) :
    (WriteLog.replay write m (before ++ c :: mid)).lookup k = some v := by
  have hlast : WriteLog.lastWrite write k (before ++ c :: mid) = some (some v) := by
    refine WriteLog.lastWrite_of_split write ((WriteLog.effect_eq_some_iff write).mpr hset) ?_
    intro d hd
    by_contra hsome
    obtain ⟨w, hw⟩ := Option.ne_none_iff_exists'.mp hsome
    exact hmid d hd w ((WriteLog.effect_eq_some_iff write).mp hw)
  rw [WriteLog.lookup_replay, hlast]
  rfl

/-- A value that a plugin has set is the entry of the key in the host state of every later call
of the same plugin, and a variable is that for every later plugin as well, unless the export of
the plugin that sets it does not return. -/
private theorem entry_of_setBefore (orders : Orders http) (turns : List Turn)
    (ctx : RequestContext http) (set get : Step) (k v : String) :
    (SetBefore HostCall.varWrite (chainSteps orders 0 turns ctx) set get k v →
      set.returned = true ∨ set.plugin = get.plugin → get.state.vars.lookup k = some v) ∧
    (SetBefore HostCall.headerWrite (chainSteps orders 0 turns ctx) set get k v →
      set.plugin = get.plugin → get.state.headers.lookup k = some v) := by
  constructor
  · rintro ⟨before, mid, after, hsteps, hset, hmid⟩ hseen
    rw [← List.cons_append, ← List.append_assoc] at hsteps
    -- a variable: what the plugin sees of the steps before
    have hsplit : seenBy get (before ++ set :: mid) =
        seenBy get before ++ set.call :: seenBy get mid := by
      unfold seenBy
      rw [List.filter_append, List.filter_cons_of_pos (by simpa using hseen), List.map_append,
        List.map_cons]
    rw [(vars_step orders hsteps).2, hsplit]
    refine lookup_of_set hset fun d hd => ?_
    obtain ⟨s, hs, rfl⟩ := List.mem_map.mp hd
    exact hmid s (List.mem_of_mem_filter hs)
  · rintro ⟨before, mid, after, hsteps, hset, hmid⟩ hplugin
    rw [← List.cons_append, ← List.append_assoc] at hsteps
    -- a header: only the calls of the same plugin
    have hsplit : ownBefore get (before ++ set :: mid) =
        ownBefore get before ++ set.call :: ownBefore get mid := by
      unfold ownBefore
      rw [List.filter_append, List.filter_cons_of_pos (by simpa using hplugin), List.map_append,
        List.map_cons]
    obtain ⟨start, hstate⟩ := (vars_step orders hsteps).1
    rw [hstate, headers_runCalls, hsplit]
    refine lookup_of_set hset fun d hd => ?_
    obtain ⟨s, hs, rfl⟩ := List.mem_map.mp hd
    exact hmid s (List.mem_of_mem_filter hs)

/-! ## Headers of later plugins -/

/-- A name with one value, which is text, keeps it while no plugin touches the name. -/
private theorem lookup_carried (orders : Orders http) {plugin : Nat} {turns : List Turn}
    {ctx : RequestContext http} {before after : List Step} {get : Step} {name : http.HeaderName}
    {value : http.HeaderValue} {v : String}
    (h : chainSteps orders plugin turns ctx = before ++ get :: after)
    (hone : ctx.headers.getAll name = [value]) (htext : http.toStr value = some v)
    (huntouched : ∀ s ∈ before, ¬ s.call.Touches name) :
    get.state.headers.lookup (http.asStr name) = some v := by
  -- plugin by plugin, up to the one that reads
  induction turns generalizing plugin ctx before with
  | nil => simp [chainSteps] at h
  | cons t turns ih =>
    rcases split_chainSteps h with ⟨rest, hown⟩ | ⟨earlier, rfl, -, hrest⟩
    · -- the plugin's own calls leave the name
      obtain ⟨-, -, hstate⟩ := of_stepsOf hown
      have hcalls : ∀ c ∈ before.map Step.call, ¬ c.Touches name := by
        intro c hc
        obtain ⟨s, hs, rfl⟩ := List.mem_map.mp hc
        exact huntouched s hs
      have hvisible : visible ctx.headers name = [v] := by
        simp [visible, hone, htext]
      rw [hstate, lookup_untouched hcalls (http.nameFromBytes_asStr name), if_pos rfl, hvisible]
      rfl
    · have hcalls : ∀ c ∈ t.execution.calls, ¬ c.Touches name := by
        intro c hc
        have hmem : c ∈ t.calls := by
          unfold Execution.calls at hc
          unfold Turn.calls
          cases hexec : t.execution with
          | instantiateFails message => simp [hexec] at hc
          | noExport => simp [hexec] at hc
          | traps calls message => simpa [hexec] using hc
          | returns calls code => simpa [hexec] using hc
        rw [← map_call_stepsOf plugin t.returned (startState orders ctx.headers ctx.vars)
          t.calls] at hmem
        obtain ⟨s, hs, rfl⟩ := List.mem_map.mp hmem
        exact huntouched s (List.mem_append_left _ hs)
      -- a single value survives the conversion to strings and back
      have hkept := (getAll_callExport_untouched orders ctx.headers ctx.vars t.execution name
        hcalls).mpr (.inr (.inl (by simp [hone])))
      exact ih hrest (hkept.trans hone) fun s hs => huntouched s (List.mem_append_right _ hs)

/-- The key is the text of a name, the value is text, and the calls write the name under this
key only. -/
def PlainHeader (http : Http) (steps : List Step) (k v : String) : Prop :=
  ∃ name value, http.asStr name = k ∧ http.valueFromStr v = some value ∧
    http.toStr value = some v ∧
    ∀ s ∈ steps, ∀ k' w, s.call.headerWrite = some (k', w) → http.nameFromBytes k' = some name →
      k' = k

/-- A plain header that a plugin sets is its only value after the turn of the plugin. -/
private theorem getAll_of_set (orders : Orders http) {t : Turn} {ctx : RequestContext http}
    {before mid : List HostCall} {c : HostCall} {name : http.HeaderName}
    {value : http.HeaderValue} {v : String} (hreturned : t.returned = true)
    (hcalls : t.calls = before ++ c :: mid) (hset : c.headerWrite = some (http.asStr name, some v))
    (hmid : ∀ d ∈ mid, ∀ w, d.headerWrite ≠ some (http.asStr name, w))
    (hvalue : http.valueFromStr v = some value)
    (hspelling : ∀ d ∈ t.calls, ∀ k' w, d.headerWrite = some (k', w) →
      http.nameFromBytes k' = some name → k' = http.asStr name) :
    (callOnRequest orders t.execution ctx).2.headers.getAll name = [value] := by
  unfold Turn.returned at hreturned
  unfold Turn.calls at hcalls hspelling
  cases hexec : t.execution with
  | instantiateFails message => simp [hexec] at hreturned
  | noExport => simp [hexec] at hreturned
  | traps calls message => simp [hexec] at hreturned
  | returns calls code =>
    rw [hexec] at hcalls hspelling
    dsimp only at hcalls hspelling
    -- after the calls the map has the value under the name
    have hown : (runCalls (startState orders ctx.headers ctx.vars) calls).headers.lookup
        (http.asStr name) = some v := by
      rw [headers_runCalls, hcalls]
      exact lookup_of_set hset hmid
    show (stringsToHeaderMap (runCalls (startState orders ctx.headers ctx.vars) calls).headers
      (orders.strings _) ctx.headers).getAll name = [value]
    rcases getAll_stringsToHeaderMap
      (runCalls (startState orders ctx.headers ctx.vars) calls).headers (orders.strings _)
      ctx.headers name with ⟨hnone, -⟩ | ⟨k, s, value', hk, hname, hvalue', hall⟩
    · exact absurd hvalue (hnone _ v value hown (http.nameFromBytes_asStr name))
    · -- no other spelling of the name has an entry
      have hkey : k = http.asStr name := by
        by_contra hne
        have hlast : WriteLog.lastWrite HostCall.headerWrite k calls = none := by
          rw [WriteLog.lastWrite_eq_none_iff]
          intro d hd
          by_contra hsome
          obtain ⟨w, hw⟩ := Option.ne_none_iff_exists'.mp hsome
          exact hne (hspelling d hd k w (effect_headerWrite.mp hw) hname)
        rw [lookup_runCalls orders ctx.headers ctx.vars calls hname] at hk
        unfold leftUnder at hk
        rw [hlast, Option.getD_none, if_neg hne] at hk
        cases hk
      subst hkey
      rw [hown] at hk
      cases hk
      rw [hvalue] at hvalue'
      cases hvalue'
      exact hall

/-- A plain header that a plugin sets is found by the later plugins. -/
private theorem lookup_of_set_before (orders : Orders http) {plugin : Nat} {turns : List Turn}
    {ctx : RequestContext http} {before mid after : List Step} {set get : Step} {k v : String}
    (h : chainSteps orders plugin turns ctx = (before ++ set :: mid) ++ get :: after)
    (hset : set.call.headerWrite = some (k, some v))
    (hmid : ∀ s ∈ mid, ∀ w, s.call.headerWrite ≠ some (k, w)) (hreturned : set.returned = true)
    (hplugin : set.plugin ≠ get.plugin)
    (hplain : PlainHeader http (before ++ set :: mid) k v) :
    get.state.headers.lookup k = some v := by
  induction turns generalizing plugin ctx before with
  | nil => simp [chainSteps] at h
  | cons t turns ih =>
    rcases split_chainSteps h with ⟨rest, hown⟩ | ⟨earlier, hbefore, -, hrest⟩
    · -- both calls would be of the same plugin
      have hset' := mem_stepsOf (hown ▸ List.mem_append_left _
        (List.mem_append_right before List.mem_cons_self))
      exact absurd (hset'.1.trans (of_stepsOf hown).1.symm) hplugin
    · obtain ⟨name, value, rfl, hvalue, htext, hspelling⟩ := hplain
      -- the setting plugin is the first one, or comes after it
      have hcut : (∃ rest, stepsOf plugin t.returned (startState orders ctx.headers ctx.vars)
            t.calls = before ++ set :: rest ∧ mid = rest ++ earlier) ∨
          ∃ rest, earlier = rest ++ set :: mid := by
        rcases List.append_eq_append_iff.mp hbefore with ⟨rest, hown, htail⟩ | ⟨rest, -, htail⟩
        · cases rest with
          | nil => exact .inr ⟨[], htail.symm⟩
          | cons first rest =>
            obtain ⟨rfl, hmid'⟩ := List.cons.inj htail
            exact .inl ⟨rest, hown, hmid'⟩
        · exact .inr ⟨rest, htail⟩
      rcases hcut with ⟨rest, hown, rfl⟩ | ⟨rest, rfl⟩
      · have hcalls := map_call_stepsOf plugin t.returned
          (startState orders ctx.headers ctx.vars) t.calls
        rw [hown, List.map_append, List.map_cons] at hcalls
        have hturn : t.returned = true := (of_stepsOf hown).2.1 ▸ hreturned
        have hall : (callOnRequest orders t.execution ctx).2.headers.getAll name = [value] := by
          refine getAll_of_set orders hturn hcalls.symm hset ?_ hvalue ?_
          · intro d hd
            obtain ⟨s, hs, rfl⟩ := List.mem_map.mp hd
            exact hmid s (List.mem_append_left _ hs)
          · intro d hd
            rw [← hcalls, ← List.map_cons, ← List.map_append] at hd
            obtain ⟨s, hs, rfl⟩ := List.mem_map.mp hd
            refine hspelling s ?_
            rw [hbefore, hown]
            exact List.mem_append_left _ hs
        refine lookup_carried orders hrest hall htext fun s hs htouches => ?_
        -- a later write of the name would be one under the key
        obtain ⟨k', w, hwrite, hname⟩ := htouches
        have hkey := hspelling s (by rw [hbefore]; exact List.mem_append_right _ hs) k' w hwrite
          hname
        exact hmid s (List.mem_append_right _ hs) w (hkey ▸ hwrite)
      · refine ih hrest ⟨name, value, rfl, hvalue, htext, fun s hs => hspelling s ?_⟩
        rw [hbefore]
        exact List.mem_append_right _ hs

/-! ## Set and get -/

/-- When a plugin gets a value that was set before it in the chain: if the value is empty. A
value that is seen is the entry of its key; otherwise the entry has to be as long as none. -/
theorem readsBack_iff (orders : Orders http) (turns : List Turn) (ctx : RequestContext http)
    (set get : Step) (k v : String) :
    (SetBefore HostCall.varWrite (chainSteps orders 0 turns ctx) set get k v → get.ReadsVar k →
      (set.returned = true ∨ set.plugin = get.plugin →
        get.state.vars.lookup k = some v ∧ (Delivers get v ↔ v = "")) ∧
      (Delivers get v ↔
        v = "" ∧ ∃ w, get.state.vars.lookup k = some w ∧ w.utf8ByteSize % 2 ^ 32 = 0)) ∧
    (SetBefore HostCall.headerWrite (chainSteps orders 0 turns ctx) set get k v →
      get.ReadsHeader k →
      (set.plugin = get.plugin ∨ (set.returned = true ∧
          PlainHeader http (chainSteps orders 0 turns ctx) k v) →
        get.state.headers.lookup k = some v ∧ (Delivers get v ↔ v = "")) ∧
      (Delivers get v ↔
        v = "" ∧ ∃ w, get.state.headers.lookup k = some w ∧ w.utf8ByteSize % 2 ^ 32 = 0)) := by
  have hentry := entry_of_setBefore orders turns ctx set get k v
  constructor
  · intro hset hreads
    refine ⟨fun hseen => ?_, delivers_iff hreads.result⟩
    have hlookup := hentry.1 hset hseen
    exact ⟨hlookup, delivers_iff_of_entry hreads.result hlookup⟩
  · intro hset hreads
    refine ⟨fun hseen => ?_, delivers_iff hreads.result⟩
    -- the same plugin, or a header that the chain carries over
    have hlookup : get.state.headers.lookup k = some v := by
      by_cases hplugin : set.plugin = get.plugin
      · exact hentry.2 hset hplugin
      · obtain ⟨hreturned, hplain⟩ := hseen.resolve_left hplugin
        obtain ⟨before, mid, after, hsteps, hwrite, hmid⟩ := hset
        rw [← List.cons_append, ← List.append_assoc] at hsteps
        refine lookup_of_set_before orders hsteps hwrite hmid hreturned hplugin ?_
        obtain ⟨name, value, hname, hvalue, htext, hspelling⟩ := hplain
        refine ⟨name, value, hname, hvalue, htext, fun s hs => hspelling s ?_⟩
        rw [hsteps]
        exact List.mem_append_left _ hs
    exact ⟨hlookup, delivers_iff_of_entry hreads.result hlookup⟩

/-- The first byte of a memory. -/
private theorem readStr_first (b : UInt8) (memory : List UInt8) :
    readStr (some (b :: memory)) 0 1 = String.ofList (Utf8.fromLossy [b]) := by
  unfold readStr
  rw [if_neg (by decide)]
  show (if 1 > (b :: memory).length then "" else _) = _
  rw [if_neg (by simp)]
  rfl

/-- The second byte of a memory. -/
private theorem readStr_second (b b' : UInt8) (memory : List UInt8) :
    readStr (some (b :: b' :: memory)) 1 1 = String.ofList (Utf8.fromLossy [b']) := by
  unfold readStr
  rw [if_neg (by decide)]
  show (if 2 > (b :: b' :: memory).length then "" else _) = _
  rw [if_neg (by simp)]
  rfl

/-- The next plugin gets the length of a variable, but its memory has only the key in it. -/
theorem value_not_in_memory :
    let setter : List UInt8 := 107 :: 118 :: List.replicate 65534 0
    let getter : List UInt8 := 107 :: List.replicate 65535 0
    let turns : List Turn :=
      [⟨.returns [⟨some setter, .setVar 0 1 1 1⟩] 0, []⟩,
        ⟨.returns [⟨some getter, .getVar 0 1⟩] 0, []⟩]
    ∀ orders : Orders asciiHttp,
      let steps := chainSteps orders 0 turns ⟨"GET", "/", ∅, ∅⟩
      ∃ set get, SetBefore HostCall.varWrite steps set get "k" "v" ∧ get.ReadsVar "k" ∧
        get.result = some 1 ∧ ¬ utf8Bytes "v" <:+: get.memoryAfter ∧ ¬ Delivers get "v" := by
  intro setter getter turns orders steps
  obtain ⟨set, get, hsteps, hsetter, hgetter⟩ : ∃ set get : Step, steps = [set, get] ∧
      (set.plugin = 0 ∧ set.returned = true ∧ set.call = ⟨some setter, .setVar 0 1 1 1⟩) ∧
      get.call = ⟨some getter, .getVar 0 1⟩ := ⟨_, _, rfl, ⟨rfl, rfl, rfl⟩, rfl⟩
  -- the first plugin sets the variable
  have hset : SetBefore HostCall.varWrite steps set get "k" "v" := by
    refine ⟨[], [], [], hsteps, ?_, fun s hs => (by cases hs)⟩
    rw [hsetter.2.2]
    show some (readStr (some setter) 0 1, some (readStr (some setter) 1 1)) = _
    rw [readStr_first, readStr_second]
    rfl
  -- the second one reads it
  have hreads : get.ReadsVar "k" := by
    refine ⟨0, 1, by rw [hgetter], ?_⟩
    rw [hgetter]
    show readStr (some getter) 0 1 = _
    rw [readStr_first]
    rfl
  have hentry := (entry_of_setBefore orders turns _ set get "k" "v").1 hset (.inl hsetter.2.1)
  refine ⟨set, get, hset, hreads, ?_, fun hinfix => ?_, fun hdelivers => ?_⟩
  · rw [hreads.result]
    unfold lengthOrMissing
    rw [hentry]
    rfl
  · -- the memory has the byte of the key and zeros
    have hbytes : [118] <:+: getter := by
      have h := hinfix
      unfold Step.memoryAfter at h
      rw [hgetter] at h
      exact h
    have hmem : (118 : UInt8) ∈ getter := hbytes.subset List.mem_cons_self
    rcases List.mem_cons.mp hmem with h | h
    · exact absurd h (by decide)
    · exact absurd (List.eq_of_mem_replicate h) (by decide)
  · have hempty := (delivers_iff hreads.result).mp hdelivers
    exact absurd hempty.1 (by decide)

end Barqium.Native.WasmPlugin
