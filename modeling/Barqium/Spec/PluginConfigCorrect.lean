import Barqium.Native.ControlApi.Responses
import Barqium.Spec.PatchCorrect

/-!
# The config of a WASM plugin, read and written back

A response carries the config as a base64 string of the stored JSON text, since the
row's type has a `[]byte` there; a request's config is a `json.RawMessage` and is stored
as it stands. So a config that is read and sent back is stored as a string, one that is
longer than any string the old text could be.

## Key results

- `readsPlugin_stored`: create, get and PATCH answer with the stored row.
- `Deployment.config_replaced`: the config that a response carries replaces the stored one
  by another JSON value.
-/

namespace Barqium.Native.ControlApi

open Program
open AdminClient (GoText property)

/-! ## Answers -/

/-- The row is what a lookup by its id and tenant finds. -/
def Db.Finds (db : Db) (t : Table) (tenantId : UUID) (row : t.Row) : Prop :=
  t.tenant row = some tenantId ∧ (db.rows t).find? (rowIn t (t.id row) tenantId) = some row

section Answers

variable {server : Postgres.Server} {t : Table} {ext : Ext} {tenantParam idParam : String}
  {s s' : Postgres} {response : Response}

/-- A read in a tenant is answered with the row that it finds there. -/
private theorem getInTenant_finds {invalid notFound : String}
    (h : (getInTenant t invalid notFound ext tenantParam idParam).run (Postgres.exec server) s =
      (.ok response, s')) :
    ∃ tenantId row, response = ⟨200, .row t row⟩ ∧ s'.db.Finds t tenantId row := by
  -- the two ids are parsed, and the row is selected
  obtain ⟨tenantId, s₁, htenant, h⟩ := (run_bind_eq_ok _).mp h
  cases (Prod.mk.inj htenant).2
  obtain ⟨id, s₂, hid, h⟩ := (run_bind_eq_ok _).mp h
  cases (Prod.mk.inj hid).2
  obtain ⟨row, s₃, hselect, h⟩ := (run_bind_eq_ok _).mp h
  rw [run_orFail_eq_ok] at hselect
  obtain ⟨hresponse, hs'⟩ := Prod.mk.inj h
  cases hresponse
  have hdb := Postgres.exec_selectOne_db server s (rowIn t id tenantId)
  have hfind := Postgres.find?_of_exec_selectOne server s (congrArg Prod.fst hselect)
  rw [hselect] at hdb
  obtain ⟨rfl, hrow⟩ := rowIn_eq_true.mp (List.find?_some hfind)
  refine ⟨tenantId, row, rfl, hrow, ?_⟩
  rw [← hs', show s₃.db = s.db from hdb]
  exact hfind

/-- The primary key keeps the new row apart from the others. -/
private theorem createInTenant_finds {conflict : String}
    {row : UUID → Except Response (UUID → Time → t.Row)}
    (hreturns : ∀ tenantId new, row tenantId = .ok new →
      ∀ id now, t.tenant (new id now) = some tenantId)
    (h : (createInTenant t conflict ext tenantParam fun tenantId => attempt (row tenantId)).run
      (Postgres.exec server) s = (.ok response, s')) :
    ∃ tenantId row, response = ⟨201, .row t row⟩ ∧ s'.db.Finds t tenantId row := by
  -- the tenant is parsed, the row built and inserted
  obtain ⟨tenantId, s₁, htenant, h⟩ := (run_bind_eq_ok _).mp h
  cases (Prod.mk.inj htenant).2
  obtain ⟨new, s₂, hnew, h⟩ := (run_bind_eq_ok _).mp h
  have hbuilt : row tenantId = .ok new := (Prod.mk.inj hnew).1
  cases (Prod.mk.inj hnew).2
  obtain ⟨created, s₃, hinsert, h⟩ := (run_bind_eq_ok _).mp h
  rw [run_orFail_eq_ok] at hinsert
  obtain ⟨hresponse, hs'⟩ := Prod.mk.inj h
  cases hresponse
  rcases Postgres.exec_insertOne_cases server s new with
    ⟨err, herr, -⟩ | ⟨r, hr, -, hstored, hdb⟩
  · rw [hinsert] at herr
    cases herr
  · rw [hinsert] at hr hdb
    cases hr
    obtain ⟨-, hcoerce, hviolation⟩ := Db.stored_eq_ok.mp hstored
    have hrow : t.tenant created = some tenantId :=
      (Table.tenant_coerce hcoerce).trans (hreturns tenantId new hbuilt _ _)
    refine ⟨tenantId, created, rfl, hrow, ?_⟩
    -- no other row has the new id
    have hnone : (s.db.rows t).find? (rowIn t (t.id created) tenantId) = none := by
      rw [List.find?_eq_none]
      intro other hother hrowIn
      exact ((Db.violation_eq_none.mp hviolation).2.1 other hother).1 (rowIn_eq_true.mp hrowIn).1
    rw [← hs', show s₃.db = _ from hdb, Db.setRows_rows_self, List.find?_append, hnone,
      List.find?_cons_of_pos (rowIn_eq_true.mpr ⟨rfl, hrow⟩)]
    rfl

/-- A patch in a tenant is answered with the row that it finds after its update. -/
private theorem updateInTenant_finds {invalid notFound conflict : String}
    {patch : UUID → t.Row → Except Response (Time → t.Row → t.Row)}
    (hreturns : ∀ tenantId existing set, patch tenantId existing = .ok set →
      ∀ now row, t.id (set now row) = t.id row ∧ t.tenant (set now row) = t.tenant row)
    (h : (updateInTenant t invalid notFound conflict ext tenantParam idParam
      fun tenantId existing => attempt (patch tenantId existing)).run (Postgres.exec server) s =
        (.ok response, s')) :
    ∃ tenantId row, response = ⟨200, .row t row⟩ ∧ s'.db.Finds t tenantId row := by
  -- the ids are parsed, the row is read, patched and written
  obtain ⟨tenantId, s₁, htenant, h⟩ := (run_bind_eq_ok _).mp h
  cases (Prod.mk.inj htenant).2
  obtain ⟨id, s₂, hid, h⟩ := (run_bind_eq_ok _).mp h
  cases (Prod.mk.inj hid).2
  obtain ⟨existing, s₃, hselect, h⟩ := (run_bind_eq_ok _).mp h
  obtain ⟨set, s₄, hset, h⟩ := (run_bind_eq_ok _).mp h
  have hbuilt : patch tenantId existing = .ok set := (Prod.mk.inj hset).1
  cases (Prod.mk.inj hset).2
  obtain ⟨updated, s₅, hupdate, h⟩ := (run_bind_eq_ok _).mp h
  rw [run_orFail_eq_ok] at hupdate
  obtain ⟨hresponse, hs'⟩ := Prod.mk.inj h
  cases hresponse
  rcases Postgres.exec_updateOne_cases server s₃ (rowIn t id tenantId) set with
    ⟨err, herr, -⟩ | ⟨old, r, hr, -, hold, hstored, hdb⟩
  · rw [hupdate] at herr
    cases herr
  · rw [hupdate] at hr hdb
    cases hr
    have hcoerce := (Db.stored_eq_ok.mp hstored).2.1
    obtain ⟨hid, htenant⟩ := hreturns tenantId existing set hbuilt
      (server.env s₃.executed).now old
    obtain ⟨holdId, holdTenant⟩ := rowIn_eq_true.mp (List.find?_some hold)
    -- the row that is stored has the id and the tenant of the one it replaces
    have hrowId : t.id updated = id := (Table.id_coerce hcoerce).trans (hid.trans holdId)
    have hrowTenant : t.tenant updated = some tenantId :=
      (Table.tenant_coerce hcoerce).trans (htenant.trans holdTenant)
    refine ⟨tenantId, updated, rfl, hrowTenant, ?_⟩
    rw [← hs', show s₅.db = _ from hdb, Db.setRows_rows_self, hrowId]
    exact find?_map_replace (rowIn_eq_true.mpr ⟨hrowId, hrowTenant⟩) hold

/-- An update that nothing keeps from running stores the patched row. -/
theorem updateInTenant_run {invalid notFound conflict : String}
    {patch : UUID → t.Row → Except Response (Time → t.Row → t.Row)} {id tenantId : UUID}
    {existing updated : t.Row} {set : Time → t.Row → t.Row}
    (htenant : ext.uuidParse tenantParam = some tenantId) (hid : ext.uuidParse idParam = some id)
    (hfound : (s.db.rows t).find? (rowIn t id tenantId) = some existing)
    (hpatch : patch tenantId existing = .ok set)
    (hfault : (server.env s.executed).fault = none)
    (hfault' : (server.env (s.executed + 1)).fault = none)
    (hstored : s.db.stored server.types t ((s.db.rows t).filter fun x => !rowIn t id tenantId x)
      (set (server.env (s.executed + 1)).now existing) = .ok updated) :
    (updateInTenant t invalid notFound conflict ext tenantParam idParam
        fun tenantId existing => attempt (patch tenantId existing)).run (Postgres.exec server) s =
      (.ok ⟨200, .row t updated⟩,
        ⟨s.executed + 2, s.db.setRows t
          ((s.db.rows t).map fun x => if rowIn t id tenantId x then updated else x)⟩) := by
  have htenant : parseTenantID ext tenantParam = .ok tenantId := parseID_eq_ok.mpr htenant
  have hid : parseID ext invalid idParam = .ok id := parseID_eq_ok.mpr hid
  unfold updateInTenant
  rw [htenant, hid, attempt_ok_bind, attempt_ok_bind, run_bind_eq_ok]
  refine ⟨existing, ⟨s.executed + 1, s.db⟩, ?_, ?_⟩
  · rw [run_orFail_eq_ok]
    -- the row is found, and updated by the second statement
    exact Postgres.exec_selectOne_ok hfault hfound
  · dsimp only
    rw [hpatch, attempt_ok_bind, run_bind_eq_ok]
    refine ⟨updated, _, ?_, rfl⟩
    rw [run_orFail_eq_ok]
    exact Postgres.exec_updateOne_ok hfault' hfound hstored

end Answers

/-- The endpoints that answer with a plugin. -/
def Endpoint.ReadsPlugin : Endpoint → Prop
  | .inTenant _ .createWasmPlugin => True
  | .inTenant _ (.getWasmPlugin _) => True
  | .inTenant _ (.updateWasmPlugin _) => True
  | _ => False

/-- The plugin in an answer is the one that is stored. -/
theorem readsPlugin_stored {server : Postgres.Server} {ext : Ext} {mode : OidcMode}
    {endpoint : Endpoint} {r : Request} {s s' : Postgres} {status : Nat} {plugin : WasmPlugin}
    (hreads : endpoint.ReadsPlugin)
    (h : (handle ext mode endpoint r).run (Postgres.exec server) s =
      (.ok ⟨status, .row .wasmPlugins plugin⟩, s')) :
    s'.db.Finds .wasmPlugins plugin.tenantId plugin := by
  obtain ⟨_, s₁, hpass, h⟩ := (run_bind_eq_ok _).mp h
  cases (Prod.mk.inj hpass).2
  -- each of the three endpoints answers with a stored row
  have hfinds : ∃ status' tenantId row,
      (⟨status, .row .wasmPlugins plugin⟩ : Response) = ⟨status', .row .wasmPlugins row⟩ ∧
        s'.db.Finds .wasmPlugins tenantId row := by
    cases endpoint with
    | inTenant tenant endpoint =>
      cases endpoint with
      | createWasmPlugin =>
        refine ⟨201, createInTenant_finds (fun tenantId new hnew id now => ?_) h⟩
        obtain ⟨source, -, hnew⟩ := Except.bind_eq_ok_iff.mp hnew
        obtain ⟨_, -, hnew⟩ := Except.bind_eq_ok_iff.mp hnew
        obtain ⟨_, -, hnew⟩ := Except.bind_eq_ok_iff.mp hnew
        cases hnew
        rfl
      | getWasmPlugin id => exact ⟨200, getInTenant_finds h⟩
      | updateWasmPlugin id =>
        refine ⟨200, updateInTenant_finds (fun tenantId existing set hset now row => ?_) h⟩
        obtain ⟨req, -, hset⟩ := Except.bind_eq_ok_iff.mp hset
        obtain ⟨_, -, hset⟩ := Except.bind_eq_ok_iff.mp hset
        cases hset
        exact ⟨rfl, rfl⟩
      | _ => exact hreads.elim
    | _ => exact hreads.elim
  obtain ⟨status', tenantId, row, hresponse, hrow⟩ := hfinds
  cases hresponse
  obtain rfl : plugin.tenantId = tenantId := Option.some.inj hrow.1
  exact hrow

/-! ## Configs -/

/-- What the handlers rely on of JSON texts: a `json.RawMessage` is the text of its value,
    Postgres keeps the value of a string that it stores as `JSONB`, and a string stands
    between quotes, with one character or more for each of its own. -/
structure JsonLaws (value : String → Option Json) (ext : Ext) (types : ColumnTypes) : Prop where
  rawMessage : ∀ s, value (ext.rawMessage (.str s)) = some (.str s)
  jsonb : ∀ a b s, value a = some (.str s) → types.jsonb a = .ok b → value b = some (.str s)
  length : ∀ a s, value a = some (.str s) → s.length + 2 ≤ a.length

/-- The stored config of the plugin is the same JSON value. -/
def WasmPlugin.ConfigSurvives (value : String → Option Json) (plugin : WasmPlugin) (db : Db) :
    Prop :=
  ∃ stored : WasmPlugin, (db.rows .wasmPlugins).find?
      (rowIn .wasmPlugins plugin.id plugin.tenantId) = some stored ∧
    value stored.config = value plugin.config

/-- A text has no more characters than bytes. -/
private theorem length_le_utf8Bytes (s : String) : s.length ≤ (utf8Bytes s).length := by
  -- every character takes at least one byte
  have hlist : ∀ cs : List Char, cs.length ≤ (cs.flatMap String.utf8EncodeChar).length := by
    intro cs
    induction cs with
    | nil => exact Nat.le_refl _
    | cons c cs ih =>
      have hc : 0 < c.utf8Size := c.utf8Size_pos
      rw [List.flatMap_cons, List.length_append, String.length_utf8EncodeChar, List.length_cons]
      omega
  rw [← String.length_toList]
  exact hlist s.toList

/-- A text does not denote its own encoding, which is longer. -/
theorem JsonLaws.value_ne_encoding {value : String → Option Json} {ext : Ext} {types : ColumnTypes}
    (h : JsonLaws value ext types) (text : String) :
    value text ≠ some (.str (String.ofList (Base64.encode (utf8Bytes text)))) := by
  intro hvalue
  have hlength := h.length text _ hvalue
  have hutf8 := length_le_utf8Bytes text
  have hencode := Base64.length_le_length_encode (utf8Bytes text)
  rw [String.length_ofList] at hlength
  omega

/-- The config in an answer is the base64 string of the stored text. -/
private theorem wasmPluginJson_config (text : GoText) (plugin : WasmPlugin) :
    property (wasmPluginJson text plugin) "config" =
      some (bytesJson (utf8Bytes plugin.config)) := by
  unfold wasmPluginJson
  cases plugin.storageUrl <;> rfl

/-- A row with another config violates no other constraint. -/
private theorem stored_withConfig {types : ColumnTypes} {db : Db} {others : List WasmPlugin}
    {plugin row : WasmPlugin} {config config' : String} {now : Time}
    (h : db.stored types .wasmPlugins others plugin = .ok row)
    (hjsonb : types.jsonb config = .ok config') :
    db.stored types .wasmPlugins others ({ plugin with config, updatedAt := now } : WasmPlugin) =
      .ok ({ plugin with config := config', updatedAt := now } : WasmPlugin) := by
  -- the configuration takes part in no other check
  obtain ⟨htexts, hcoerce, hviolation⟩ := Db.stored_eq_ok.mp h
  simp only [Table.coerce] at hcoerce
  split at hcoerce
  · cases hcoerce
  · rename_i htrigger
    cases hplugin : types.jsonb plugin.config with
    | error e =>
      rw [hplugin] at hcoerce
      cases hcoerce
    | ok c =>
      rw [hplugin] at hcoerce
      cases hcoerce
      refine Db.stored_eq_ok.mpr ⟨htexts, ?_, hviolation⟩
      simp only [Table.coerce, htrigger, ↓reduceIte, hjsonb]
      rfl

/-- A body with a config alone is decoded to it. -/
private theorem decode_config {r : Request} {config : Json}
    (hbody : r.body = some (.obj [("config", config)])) :
    decodeBody CreateWasmPluginRequest.set {} r = .ok { config := some config } := by
  have hset : CreateWasmPluginRequest.set {} (foldName "config") config =
      some { config := some config } := rfl
  simp only [decodeBody, hbody, List.foldlM_cons, hset]
  rfl

/-- A patch of the config alone. -/
theorem updateWasmPlugin_run {server : Postgres.Server} {ext : Ext} {r : Request}
    {tenantParam idParam : String} {s : Postgres} {plugin row : WasmPlugin} {config : Json}
    {config' : String} (hbody : r.body = some (.obj [("config", config)]))
    (htenant : ext.uuidParse tenantParam = some plugin.tenantId)
    (hid : ext.uuidParse idParam = some plugin.id)
    (hfound : (s.db.rows .wasmPlugins).find?
      (rowIn .wasmPlugins plugin.id plugin.tenantId) = some plugin)
    (hfault : (server.env s.executed).fault = none)
    (hfault' : (server.env (s.executed + 1)).fault = none)
    (hstored : s.db.stored server.types .wasmPlugins ((s.db.rows .wasmPlugins).filter fun x =>
      !rowIn .wasmPlugins plugin.id plugin.tenantId x) plugin = .ok row)
    (hjsonb : server.types.jsonb (ext.rawMessage config) = .ok config') :
    ∃ updated s', (updateWasmPlugin ext r tenantParam idParam).run (Postgres.exec server) s =
        (.ok ⟨200, .row .wasmPlugins updated⟩, s') ∧
      (s'.db.rows .wasmPlugins).find?
        (rowIn .wasmPlugins plugin.id plugin.tenantId) = some updated ∧
      updated.config = config' := by
  let updated : WasmPlugin :=
    { plugin with config := config', updatedAt := (server.env (s.executed + 1)).now }
  have hrun : (updateWasmPlugin ext r tenantParam idParam).run (Postgres.exec server) s =
      (.ok ⟨200, .row .wasmPlugins updated⟩, ⟨s.executed + 2,
        s.db.setRows .wasmPlugins ((s.db.rows .wasmPlugins).map fun x =>
          if rowIn .wasmPlugins plugin.id plugin.tenantId x then updated else x)⟩) := by
    unfold updateWasmPlugin
    rw [decode_config hbody]
    -- the fields that the patch does not give are those of the row
    exact updateInTenant_run htenant hid hfound rfl hfault hfault'
      (stored_withConfig hstored hjsonb)
  refine ⟨updated, _, hrun, ?_, rfl⟩
  rw [Db.setRows_rows_self]
  exact find?_map_replace (rowIn_eq_true.mpr ⟨rfl, rfl⟩) hfound

/-- The config in the answer of create, get or PATCH is sent back in a PATCH of the plugin,
    and the server and the database let it through. -/
structure SendsBack (api : Deployment) (text : GoText) (plugin : WasmPlugin)
    (tenantParam idParam : String) (patch : Request) (s : Postgres) : Prop where
  answered : ∃ (endpoint : Endpoint) (r : Request) (s₀ : Postgres) (status : Nat),
    endpoint.ReadsPlugin ∧
      (handle api.ext api.oidcMode endpoint r).run (Postgres.exec api.server) s₀ =
        (.ok ⟨status, .row .wasmPlugins plugin⟩, s)
  tenant : api.ext.uuidParse tenantParam = some plugin.tenantId
  id : api.ext.uuidParse idParam = some plugin.id
  body : ∃ config, property (wasmPluginJson text plugin) "config" = some config ∧
    patch.body = some (.obj [("config", config)]) ∧
    ∃ stored, api.server.types.jsonb (api.ext.rawMessage config) = .ok stored
  admitted : middlewares api.oidcMode patch
    (.inTenant tenantParam (.updateWasmPlugin idParam)) = .ok ()
  noFault : (api.server.env s.executed).fault = none ∧
    (api.server.env (s.executed + 1)).fault = none
  /-- The row that is stored satisfies the constraints of the table. -/
  valid : ∃ row, s.db.stored api.server.types .wasmPlugins
    ((s.db.rows .wasmPlugins).filter fun x =>
      !rowIn .wasmPlugins plugin.id plugin.tenantId x) plugin = .ok row

namespace Deployment

/-- Whatever config a plugin has, the one that an answer carries, sent back, replaces it by
    another JSON value. -/
theorem config_replaced (api : Deployment) (text : GoText) (value : String → Option Json)
    (hlaws : JsonLaws value api.ext api.server.types) (plugin : WasmPlugin)
    (tenantParam idParam : String) (patch : Request) (s : Postgres)
    (h : SendsBack api text plugin tenantParam idParam patch s) :
    let answer := api.serve s (.inTenant tenantParam (.updateWasmPlugin idParam), patch)
    answer.1.status = 200 ∧ ¬ plugin.ConfigSurvives value answer.2.db := by
  intro answer
  obtain ⟨endpoint, r, s₀, status, hreads, hread⟩ := h.answered
  obtain ⟨row, hrow⟩ := h.valid
  obtain ⟨config, hconfig, hbody, stored, hstored⟩ := h.body
  obtain ⟨updated, s', hrun, hfind, hupdated⟩ :=
    updateWasmPlugin_run hbody h.tenant h.id (readsPlugin_stored hreads hread).2 h.noFault.1
      h.noFault.2 hrow hstored
  have hanswer : answer = (⟨200, .row .wasmPlugins updated⟩, s') := serve_of_ok h.admitted hrun
  rw [hanswer]
  refine ⟨rfl, ?_⟩
  rintro ⟨found, hfound, hsame⟩
  obtain rfl : updated = found := Option.some.inj (hfind.symm.trans hfound)
  obtain rfl : bytesJson (utf8Bytes plugin.config) = config :=
    Option.some.inj ((wasmPluginJson_config text plugin).symm.trans hconfig)
  -- what is stored now is the encoding, as a string
  rw [hupdated] at hsame
  refine hlaws.value_ne_encoding plugin.config ?_
  rw [← hsame]
  exact hlaws.jsonb _ _ _ (hlaws.rawMessage _) hstored

/-- A server that keeps the text of a string between quotes. -/
def quoting : Deployment :=
  { counting with
    ext := { counting.ext with
      rawMessage := fun v =>
        match v with
        | .str s => "\"" ++ s ++ "\""
        | _ => "null" } }

/-- The values of quoted texts without an escape and of the empty object. -/
def quotedValue (text : String) : Option Json :=
  match text.toList with
  | '"' :: rest =>
    if rest.getLast? = some '"' then some (.str (String.ofList rest.dropLast)) else none
  | _ => if text = "\x7b\x7d" then some (.obj []) else none

/-- A quoting JSON library is one. -/
private theorem quoting_laws : JsonLaws quotedValue quoting.ext quoting.server.types where
  rawMessage s := by
    have hlist : ("\"" ++ s ++ "\"").toList = '"' :: (s.toList ++ ['"']) := by simp
    show quotedValue ("\"" ++ s ++ "\"") = _
    simp [quotedValue, hlist]
  jsonb a b s ha hb := by
    cases hb
    exact ha
  length a s ha := by
    -- a quoted text is longer than what it quotes
    unfold quotedValue at ha
    split at ha
    · rename_i rest hrest
      split at ha
      · rename_i hlast
        cases ha
        have hne : rest ≠ [] := by
          rintro rfl
          cases hlast
        have hpos : 0 < rest.length := List.length_pos_iff.mpr hne
        rw [← String.length_toList (s := a), hrest, String.length_ofList, List.length_dropLast,
          List.length_cons]
        omega
      · cases ha
    · split at ha
      · cases ha
      · cases ha

/-- A plugin with an empty config. -/
def authPlugin : WasmPlugin :=
  ⟨2, 1, "auth", "0.1.0", "both", "storage-backed", some "s3://plugins/auth.wasm", none,
    "\x7b\x7d", true, 0, 0⟩

def onePlugin : Postgres where
  executed := 0
  db := (Db.empty.setRows .tenants ([⟨1, "Acme", "acme", true, 0, 0⟩] : List Tenant)).setRows
    .wasmPlugins [authPlugin]

/-- The plugin is read, and its config sent back as it came. -/
private theorem authPlugin_sendsBack :
    SendsBack quoting ⟨fun id => id.toNat.repr, Int.repr⟩ authPlugin "1" "2"
      (jsonRequest [("config", .str "e30=")]) ⟨1, onePlugin.db⟩ where
  answered := ⟨.inTenant "1" (.getWasmPlugin "2"), jsonRequest [], onePlugin, 200, trivial, rfl⟩
  tenant := by decide
  id := by decide
  body := ⟨.str "e30=", rfl, rfl, _, rfl⟩
  admitted := rfl
  noFault := ⟨rfl, rfl⟩
  valid := ⟨authPlugin, rfl⟩

theorem empty_config_replaced :
    let answer := quoting.serve ⟨1, onePlugin.db⟩
      (.inTenant "1" (.updateWasmPlugin "2"), jsonRequest [("config", .str "e30=")])
    answer.1.status = 200 ∧ ¬ authPlugin.ConfigSurvives quotedValue answer.2.db :=
  config_replaced quoting ⟨fun id => id.toNat.repr, Int.repr⟩ quotedValue quoting_laws
    authPlugin "1" "2" (jsonRequest [("config", .str "e30=")]) ⟨1, onePlugin.db⟩
    authPlugin_sendsBack

/-- The empty object becomes a string of four characters. -/
theorem config_lost :
    ¬ ∀ (api : Deployment) (text : GoText) (value : String → Option Json) (plugin : WasmPlugin)
        (tenantParam idParam : String) (patch : Request) (s : Postgres),
      JsonLaws value api.ext api.server.types →
      SendsBack api text plugin tenantParam idParam patch s →
      plugin.ConfigSurvives value (api.serve s
        (.inTenant tenantParam (.updateWasmPlugin idParam), patch)).2.db := by
  intro h
  obtain ⟨stored, hstored, hsame⟩ := h quoting ⟨fun id => id.toNat.repr, Int.repr⟩ quotedValue
    authPlugin "1" "2" (jsonRequest [("config", .str "e30=")]) ⟨1, onePlugin.db⟩ quoting_laws
    authPlugin_sendsBack
  -- the base64 text of the configuration is stored as a JSON string
  have hfound : ((quoting.serve ⟨1, onePlugin.db⟩ (.inTenant "1" (.updateWasmPlugin "2"),
      jsonRequest [("config", .str "e30=")])).2.db.rows .wasmPlugins).find?
        (rowIn .wasmPlugins authPlugin.id authPlugin.tenantId) =
      some { authPlugin with config := "\"e30=\"", updatedAt := 2 } := rfl
  cases hfound.symm.trans hstored
  cases hsame

end Deployment

end Barqium.Native.ControlApi
