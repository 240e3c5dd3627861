import Mathlib.Data.List.Induction
import Barqium.Native.ToolRegistry

/-!
# The tool registry as a map of pairs

The registry flattens a server and a tool name into one string. Where no name has a
`'/'` in it, the registry is the map of pairs it is meant to be; with the first
tool registered under such a name it is not.

## Key results

- `toolKey_inj`: the key determines the pair when the pair has no `'/'`.
- `pairMap_iff`: the registry behaves as a map of pairs along a run exactly when no
  operation of the run registers a name with a `'/'`.
-/

namespace Barqium.Native

/-! ## Keys -/

/-- The name has no `'/'`. -/
def SlashFree (name : String) : Prop := '/' ∉ name.toList

/-- The key is the server, a slash and the tool. -/
private theorem toolKey_toList (server tool : String) :
    (toolKey server tool).toList = server.toList ++ '/' :: tool.toList := by
  simp [toolKey, String.toList_append]

/-- Without slashes in the names the key tells them apart. -/
theorem toolKey_inj {server tool server' tool' : String} (hserver : SlashFree server)
    (htool : SlashFree tool) (h : toolKey server tool = toolKey server' tool') :
    server = server' ∧ tool = tool' := by
  have hlist := congrArg String.toList h
  rw [toolKey_toList, toolKey_toList] at hlist
  obtain ⟨hs, -, ht⟩ := (List.append_cons_inj_of_notMem hserver htool).mp hlist
  exact ⟨String.toList_inj.mp hs, String.toList_inj.mp ht⟩

/-- A name with a `'/'` in it can be read as a pair. -/
private theorem exists_toolKey {name : String} (h : ¬ SlashFree name) :
    ∃ a b, name = toolKey a b := by
  obtain ⟨a, b, hab⟩ := List.append_of_mem (not_not.mp h)
  refine ⟨String.ofList a, String.ofList b, String.toList_inj.mp ?_⟩
  rw [toolKey_toList, String.toList_ofList, String.toList_ofList, hab]

/-- The key of a pair with a `'/'` in a name is also the key of another server's tool. -/
private theorem exists_other_pair {server tool : String}
    (h : ¬ (SlashFree server ∧ SlashFree tool)) :
    ∃ server' tool', toolKey server' tool' = toolKey server tool ∧ server' ≠ server := by
  by_cases hserver : SlashFree server
  · obtain ⟨a, b, rfl⟩ := exists_toolKey fun htool => h ⟨hserver, htool⟩
    refine ⟨toolKey server a, b, by simp [toolKey, String.append_assoc], fun heq => ?_⟩
    have hlen := congrArg (fun s => s.toList.length) heq
    simp [toolKey_toList] at hlen
  · obtain ⟨a, b, rfl⟩ := exists_toolKey hserver
    refine ⟨a, toolKey b tool, by simp [toolKey, String.append_assoc], fun heq => ?_⟩
    have hlen := congrArg (fun s => s.toList.length) heq
    simp [toolKey_toList] at hlen

/-- A key starts with `server/` when it is the key of a tool of that server. -/
private theorem startsWith_server {key server : String} :
    startsWith key (server ++ "/") = true ↔ ∃ tool, key = toolKey server tool := by
  rw [startsWith, List.isPrefixOf_iff_prefix]
  constructor
  · rintro ⟨rest, hrest⟩
    -- the rest of the key is the name of the tool
    refine ⟨String.ofList rest, String.toList_inj.mp ?_⟩
    rw [toolKey_toList, String.toList_ofList, ← hrest]
    simp [String.toList_append]
  · rintro ⟨tool, rfl⟩
    refine ⟨tool.toList, ?_⟩
    rw [toolKey_toList]
    simp [String.toList_append]

/-! ## The map of pairs -/

/-- What an operation makes of the tool `tool` of `server`: nothing, a new entry, or its
    removal (`some none`). -/
def RegistryOp.effect (server tool : String) : RegistryOp → Option (Option RegistryEntry)
  | .upsert serverName t tier allowedRoles =>
    if serverName = server ∧ t.name = tool then some (some ⟨t, serverName, tier, allowedRoles⟩)
    else none
  | .removeServer serverName => if serverName = server then some none else none

/-- The names an operation registers have no `'/'`. -/
def RegistryOp.NamesSlashFree : RegistryOp → Prop
  | .upsert serverName t _ _ => SlashFree serverName ∧ SlashFree t.name
  | .removeServer _ => True

namespace ToolRegistry

/-- The entry of the last upsert of `tool` for `server` since the last removal of
    `server`. -/
def registered (ops : List RegistryOp) (server tool : String) : Option RegistryEntry :=
  (ops.reverse.findSome? (RegistryOp.effect server tool)).join

/-- What `get_checked` answers when it finds `entry`. -/
def checkEntry (debugRoles : List String → String) (server tool : String) (roles : List String) :
    Option RegistryEntry → Except McpError RegistryEntry
  | none => .error (.toolNotFound server tool)
  | some entry =>
    if isAllowed entry.allowedRoles roles then .ok entry
    else .error (.accessDenied tool (debugRoles entry.allowedRoles))

/-- After `ops` the registry is the map of pairs: a lookup answers from the last upsert of
    the pair since the last removal of its server, and a removal takes exactly the
    entries of its server. -/
structure PairMap (ops : List RegistryOp) : Prop where
  lookup : ∀ debugRoles server tool roles,
    (run ops).getChecked debugRoles server tool roles =
      checkEntry debugRoles server tool roles (registered ops server tool)
  remove : ∀ server key entry,
    ((run ops).removeServer server).entries.lookup key = some entry ↔
      (run ops).entries.lookup key = some entry ∧ entry.serverName ≠ server

/-- One more operation. -/
theorem run_concat (ops : List RegistryOp) (op : RegistryOp) :
    run (ops ++ [op]) = (run ops).step op := by
  simp [run]

/-- The last operation on a pair decides what it is registered as. -/
private theorem registered_concat (ops : List RegistryOp) (op : RegistryOp) (server tool : String) :
    registered (ops ++ [op]) server tool =
      (op.effect server tool).getD (registered ops server tool) := by
  simp only [registered, List.reverse_append, List.reverse_singleton, List.singleton_append,
    List.findSome?_cons]
  cases op.effect server tool <;> rfl

/-- `get_checked` looks at the entry under the key and nowhere else. -/
private theorem getChecked_eq (registry : ToolRegistry) (debugRoles : List String → String)
    (server tool : String) (roles : List String) :
    registry.getChecked debugRoles server tool roles =
      checkEntry debugRoles server tool roles (registry.entries.lookup (toolKey server tool)) := by
  unfold getChecked
  cases registry.entries.lookup (toolKey server tool) with
  | none => rfl
  | some entry =>
    simp only [checkEntry]
    cases isAllowed entry.allowedRoles roles <;> rfl

/-- `remove_server` takes out the keys that start with the server and a slash. -/
private theorem lookup_removeServer (registry : ToolRegistry) (server key : String) :
    (registry.removeServer server).entries.lookup key =
      if startsWith key (server ++ "/") then none else registry.entries.lookup key := by
  simp only [removeServer, HashMap.lookup_retain, Bool.not_eq_true']
  cases startsWith key (server ++ "/") <;> rfl

/-- The registered entry of a pair is an entry of that server. -/
private theorem registered_serverName {ops : List RegistryOp} {server tool : String}
    {entry : RegistryEntry} (h : registered ops server tool = some entry) :
    entry.serverName = server := by
  rw [registered, Option.join_eq_some_iff] at h
  obtain ⟨op, -, heffect⟩ := List.exists_of_findSome?_eq_some h
  cases op with
  | upsert serverName t tier allowedRoles =>
    simp only [RegistryOp.effect] at heffect
    split at heffect
    · -- the call was for this pair
      rename_i hpair
      cases heffect
      exact hpair.1
    · cases heffect
  | removeServer serverName =>
    simp only [RegistryOp.effect] at heffect
    split at heffect <;> cases heffect

/-! ## Names without a slash -/

/-- Entries of a registry were all registered under names without a `'/'`. -/
def EntriesSlashFree (registry : ToolRegistry) : Prop :=
  ∀ key entry, registry.entries.lookup key = some entry →
    SlashFree entry.serverName ∧ SlashFree entry.tool.name

/-- An operation with names without slashes keeps the keys so. -/
theorem EntriesSlashFree.step {registry : ToolRegistry} (h : EntriesSlashFree registry)
    {op : RegistryOp} (hop : op.NamesSlashFree) : EntriesSlashFree (registry.step op) := by
  intro key entry hentry
  -- only an `upsert` adds an entry
  cases op with
  | upsert serverName t tier allowedRoles =>
    simp only [ToolRegistry.step, upsert] at hentry
    by_cases hkey : key = toolKey serverName t.name
    · subst hkey
      rw [Finmap.lookup_insert] at hentry
      cases hentry
      exact hop
    · rw [Finmap.lookup_insert_of_ne _ hkey] at hentry
      exact h key entry hentry
  | removeServer serverName =>
    rw [ToolRegistry.step, lookup_removeServer] at hentry
    split at hentry
    · cases hentry
    · exact h key entry hentry

/-- A run with names without slashes keeps the keys so. -/
theorem entriesSlashFree_run {ops : List RegistryOp} (h : ∀ op ∈ ops, op.NamesSlashFree) :
    EntriesSlashFree (run ops) := by
  induction ops using List.reverseRecOn with
  | nil =>
    intro key entry hentry
    rw [run, List.foldl_nil, new, Finmap.lookup_empty] at hentry
    cases hentry
  | append_singleton ops op ih =>
    rw [run_concat]
    exact (ih fun o ho => h o (by simp [ho])).step (h op (by simp))

/-- An entry found under the key of a pair is the entry of that pair. -/
theorem EntriesSlashFree.pair_of_lookup {registry : ToolRegistry} (h : EntriesSlashFree registry)
    {server tool : String} {entry : RegistryEntry}
    (hentry : registry.entries.lookup (toolKey server tool) = some entry) :
    entry.serverName = server ∧ entry.tool.name = tool := by
  obtain ⟨hserver, htool⟩ := h _ entry hentry
  exact toolKey_inj hserver htool (registry.keyed _ entry hentry)

/-- The key of an entry starts with `server/` exactly when it is an entry of `server`. -/
theorem EntriesSlashFree.startsWith_iff {registry : ToolRegistry} (h : EntriesSlashFree registry)
    {key server : String} {entry : RegistryEntry}
    (hentry : registry.entries.lookup key = some entry) :
    startsWith key (server ++ "/") = true ↔ entry.serverName = server := by
  rw [startsWith_server]
  constructor
  · rintro ⟨tool, rfl⟩
    exact (h.pair_of_lookup hentry).1
  · rintro rfl
    exact ⟨entry.tool.name, (registry.keyed key entry hentry).symm⟩

/-- An operation with names without a `'/'` changes what is held under the key of a pair
    as it changes the pair. -/
theorem EntriesSlashFree.lookup_step {registry : ToolRegistry} (h : EntriesSlashFree registry)
    {op : RegistryOp} (hop : op.NamesSlashFree) (server tool : String) :
    (registry.step op).entries.lookup (toolKey server tool) =
      (op.effect server tool).getD (registry.entries.lookup (toolKey server tool)) := by
  cases op with
  | upsert serverName t tier allowedRoles =>
    obtain ⟨hserver, htool⟩ := hop
    simp only [ToolRegistry.step, upsert, RegistryOp.effect]
    split
    · rename_i hpair
      rw [← hpair.1, ← hpair.2, Finmap.lookup_insert]
      rfl
    · rename_i hpair
      -- another pair has another key
      refine Finmap.lookup_insert_of_ne _ fun hkey => hpair ?_
      exact toolKey_inj hserver htool hkey.symm
  | removeServer serverName =>
    rw [ToolRegistry.step, lookup_removeServer]
    simp only [RegistryOp.effect]
    by_cases hserver : serverName = server
    · rw [if_pos hserver, if_pos]
      · rfl
      · exact startsWith_server.mpr ⟨tool, by rw [hserver]⟩
    · rw [if_neg hserver]
      split
      · rename_i hstarts
        -- an entry under this key would be one of both servers
        cases hentry : registry.entries.lookup (toolKey server tool) with
        | none => rfl
        | some entry =>
          have hboth := (h.startsWith_iff hentry).mp hstarts
          exact absurd (hboth.symm.trans (h.pair_of_lookup hentry).1) hserver
      · rfl

/-- With names without a `'/'`, the registry holds under the key of each pair what was
    registered for the pair. -/
theorem lookup_run {ops : List RegistryOp} (h : ∀ op ∈ ops, op.NamesSlashFree)
    (server tool : String) :
    (run ops).entries.lookup (toolKey server tool) = registered ops server tool := by
  induction ops using List.reverseRecOn with
  | nil => exact Finmap.lookup_empty _
  | append_singleton ops op ih =>
    have hops : ∀ o ∈ ops, o.NamesSlashFree := fun o ho => h o (by simp [ho])
    rw [run_concat, registered_concat, ← ih hops]
    exact (entriesSlashFree_run hops).lookup_step (h op (by simp)) server tool

/-- After such a run the registry is a map on pairs. -/
private theorem pairMap_of_slashFree {ops : List RegistryOp} (h : ∀ op ∈ ops, op.NamesSlashFree) :
    PairMap ops := by
  have hfree := entriesSlashFree_run h
  refine ⟨fun debugRoles server tool roles => ?_, fun server key entry => ?_⟩
  · rw [getChecked_eq, lookup_run h]
  · rw [lookup_removeServer]
    constructor
    · intro hentry
      split at hentry
      · cases hentry
      · -- a key begins with the server name and a slash only if it is of that server
        rename_i hstarts
        exact ⟨hentry, fun hserver => hstarts ((hfree.startsWith_iff hentry).mpr hserver)⟩
    · rintro ⟨hentry, hserver⟩
      rw [if_neg fun hstarts => hserver ((hfree.startsWith_iff hentry).mp hstarts)]
      exact hentry

/-- Along a run of any operations the registry is the map of pairs in every state, if and
    only if no operation of the run registers a server or a tool name with a `'/'`. -/
theorem pairMap_iff (ops : List RegistryOp) :
    (∀ pre, pre <+: ops → PairMap pre) ↔ ∀ op ∈ ops, op.NamesSlashFree := by
  constructor
  · intro hmap op hop
    obtain ⟨pre, post, rfl⟩ := List.append_of_mem hop
    cases op with
    | removeServer serverName => trivial
    | upsert serverName t tier allowedRoles =>
      by_contra hslash
      -- the key has a second reading, as a pair of another server
      obtain ⟨server', tool', hkey, hne⟩ := exists_other_pair hslash
      -- right after the upsert, the other reading of its key finds the same entry
      have hlookup := (hmap (pre ++ [.upsert serverName t tier allowedRoles])
        ⟨post, by simp⟩).lookup (fun _ => "") server' tool' allowedRoles
      have hallowed : isAllowed allowedRoles allowedRoles = true := by
        unfold isAllowed
        cases allowedRoles <;> simp
      rw [getChecked_eq, run_concat, hkey, step, upsert, Finmap.lookup_insert] at hlookup
      simp only [checkEntry, hallowed, if_true] at hlookup
      cases hreg : registered (pre ++ [.upsert serverName t tier allowedRoles]) server' tool' with
      -- but the map has no entry of that server for it
      | none => rw [hreg] at hlookup; cases hlookup
      | some entry =>
        rw [hreg] at hlookup
        simp only at hlookup
        split at hlookup
        · cases hlookup
          exact hne (registered_serverName hreg).symm
        · cases hlookup
  · rintro hfree pre ⟨post, rfl⟩
    exact pairMap_of_slashFree fun op hop => hfree op (by simp [hop])

/-- The tool `b/c` of server `a` is found as the tool `c` of server `a/b`. -/
theorem slash_in_tool_name_collides :
    ¬ ∀ pre, pre <+: [RegistryOp.upsert "a" ⟨"b/c", none, .null⟩ .readOnly []] → PairMap pre := by
  intro h
  have hlookup := (h _ (List.prefix_refl _)).lookup (fun _ => "") "a/b" "c" []
  rw [getChecked_eq] at hlookup
  exact absurd hlookup (by simp [registered, RegistryOp.effect, checkEntry, run, step, upsert,
    toolKey, isAllowed, new])

end ToolRegistry

end Barqium.Native
