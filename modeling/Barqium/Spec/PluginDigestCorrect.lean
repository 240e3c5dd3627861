import Barqium.Spec.ConcurrentCorrect

/-!
# Digests of WASM plugins

Migration 007 keeps the SHA-256 of a plugin's binary in the row, for integrity
verification. Two handlers write the pair: `createWasmPlugin` computes the digest of the
file that was uploaded, and `updateWasmPlugin` writes back digest and binary as it read
them in an earlier statement. A file without a byte gets the placeholder of the plugins
that are stored elsewhere, unless the upload is refused for something else.

## Key results

- `createWasmPlugin_writesDigest`: the digest of a new plugin.
- `updateWasmPlugin_keeps`: the pair is written back as it was read.
- `Deployment.digestsTrue_interleave`: in every interleaving without an empty upload that is
  acceptable otherwise, the digests are those of the binaries.
-/

namespace Barqium.Native.ControlApi

open Program (attempt Performs Returns Keeps)

/-- A plugin that is not stored elsewhere has the digest of its binary. -/
def WasmPlugin.DigestTrue (ext : Ext) (plugin : WasmPlugin) : Prop :=
  plugin.storageUrl = none →
    ∃ bytes, plugin.wasmBinary = some bytes ∧ plugin.sha256 = ext.sha256Hex bytes

def Db.DigestsTrue (ext : Ext) (db : Db) : Prop :=
  ∀ plugin : WasmPlugin, plugin ∈ db.rows .wasmPlugins → plugin.DigestTrue ext

/-- A multipart upload of a file without a byte, with nothing else to refuse: the plugin has a
    name, its trigger is one of the three, its texts can be stored and its config is a document. -/
def Request.UploadsEmptyFile (types : ColumnTypes) (r : Request) : Prop :=
  "multipart/form-data".toList.isPrefixOf r.contentType.toList = true ∧
    ∃ form, r.form = some form ∧ form.wasmBinary = some (some []) ∧ form.value "name" ≠ "" ∧
      validTriggers.contains (provided (form.value "trigger") "both") = true ∧
      (∀ text ∈ [form.value "name", provided (form.value "version") "0.1.0"],
        text.toList.contains '\x00' = false) ∧
      ∃ config, types.jsonb (form.value "config") = .ok config

/-! ## Statements -/

/-- The texts of the plugin can be stored, and its config is a document. -/
structure WasmPlugin.Storable (types : ColumnTypes) (plugin : WasmPlugin) : Prop where
  texts : ((Table.wasmPlugins.texts plugin).any fun s => s.toList.contains '\x00') = false
  config : ∃ config, types.jsonb plugin.config = .ok config

/-- The plugins that the statement can store have the digests of their binaries. -/
def Query.WritesDigest (ext : Ext) (types : ColumnTypes) : {β : Type} → Query β → Prop
  | _, .insertOne .wasmPlugins row => ∀ id now, WasmPlugin.Storable types (row id now) →
    WasmPlugin.DigestTrue ext (row id now)
  | _, .updateOne .wasmPlugins _ set => ∀ now r, WasmPlugin.DigestTrue ext (set now r)
  | _, _ => True

/-- A statement that writes no plugin. -/
theorem Query.Writes.writesDigest {ext : Ext} {types : ColumnTypes} {write : Option Write}
    {β : Type} {q : Query β} (h : q.Writes write) (hinsert : write ≠ some (.insert .wasmPlugins))
    (hupdate : write ≠ some (.update .wasmPlugins)) : q.WritesDigest ext types := by
  cases q with
  | insertOne t row =>
    cases t with
    -- only rows of this table have digests
    | wasmPlugins => exact absurd h hinsert
    | _ => trivial
  | updateOne t p set =>
    cases t with
    | wasmPlugins => exact absurd h hupdate
    | _ => trivial
  | _ => trivial

/-- Rows of other tables have no digest. -/
def Table.DigestTrue (ext : Ext) : (t : Table) → t.Row → Prop
  | .wasmPlugins, plugin => WasmPlugin.DigestTrue ext plugin
  | _, _ => True

/-- Storing a plugin changes its config only. -/
theorem WasmPlugin.digestTrue_coerce {ext : Ext} {types : ColumnTypes} {plugin row : WasmPlugin}
    (h : Table.coerce types .wasmPlugins plugin = .ok row) (hdigest : plugin.DigestTrue ext) :
    row.DigestTrue ext := by
  have hsame : Table.wasmPlugins.DigestTrue ext row = Table.wasmPlugins.DigestTrue ext plugin :=
    Table.coerce_keeps (Table.DigestTrue ext) (fun _ _ => rfl) (fun _ _ => rfl) h
  exact hsame.mpr hdigest

/-- What the checks of the columns let through is storable. -/
theorem WasmPlugin.storable_of_stored {types : ColumnTypes} {db : Db} {others : List WasmPlugin}
    {plugin row : WasmPlugin} (h : db.stored types .wasmPlugins others plugin = .ok row) :
    plugin.Storable types := by
  obtain ⟨htexts, hcoerce, -⟩ := Db.stored_eq_ok.mp h
  refine ⟨htexts, ?_⟩
  simp only [Table.coerce] at hcoerce
  split at hcoerce
  · cases hcoerce
  · -- the configuration is read as `jsonb`
    cases hconfig : types.jsonb plugin.config with
    | ok config => exact ⟨config, rfl⟩
    | error e =>
      rw [hconfig] at hcoerce
      cases hcoerce

section Statements

variable {server : Postgres.Server} {s : Postgres} {ext : Ext}

/-- A statement keeps the digests true if it writes true ones. -/
theorem Postgres.exec_digestsTrue {β : Type} {q : Query β} (hq : q.WritesDigest ext server.types)
    (h : s.db.DigestsTrue ext) : (exec server q s).2.db.DigestsTrue ext := by
  intro plugin hplugin
  -- only a write to the plugins could store another digest
  cases q with
  | selectOne t p =>
    rw [exec_selectOne_db] at hplugin
    exact h plugin hplugin
  | selectMany t p le limit offset =>
    rw [exec_selectMany_db] at hplugin
    exact h plugin hplugin
  | insertOne t row =>
    by_cases ht : t = .wasmPlugins
    · subst ht
      rcases mem_rows_insertOne hplugin with hplugin | ⟨-, hstored⟩
      · exact h plugin hplugin
      · exact WasmPlugin.digestTrue_coerce (Db.stored_eq_ok.mp hstored).2.1
          (hq _ _ (WasmPlugin.storable_of_stored hstored))
    · rw [rows_insertOne_of_ne row (Ne.symm ht)] at hplugin
      exact h plugin hplugin
  | updateOne t p set =>
    by_cases ht : t = .wasmPlugins
    · subst ht
      rcases mem_rows_updateOne hplugin with hplugin | ⟨old, -, -, hstored⟩
      · exact h plugin hplugin
      · exact WasmPlugin.digestTrue_coerce (Db.stored_eq_ok.mp hstored).2.1 (hq _ _)
    · rw [rows_updateOne_of_ne p set (Ne.symm ht)] at hplugin
      exact h plugin hplugin
  | deleteAll t p => exact h plugin ((rows_deleteAll_sublist p .wasmPlugins).subset hplugin)

end Statements

/-! ## Handlers -/

section Handlers

variable {server : Postgres.Server} {s : Postgres} {ext : Ext} {r : Request}
  {tenantParam idParam : String}

/-- Any program that writes true digests, next to others that do. -/
theorem Performs.keeps_digests {x : Handler}
    (h : x.Performs (Query.WritesDigest ext server.types)) :
    x.Keeps (Postgres.exec server) (fun _ _ => True) (fun s => s.db.DigestsTrue ext)
      (fun _ _ => True) s :=
  Performs.keeps (fun _ _ hq hs => ⟨trivial, Postgres.exec_digestsTrue hq hs⟩) h

/-- What a multipart upload with a file says of the new plugin. -/
private theorem wasmSource_of_form {form : MultipartForm} {bytes : Bytes}
    (hmultipart : "multipart/form-data".toList.isPrefixOf r.contentType.toList = true)
    (hform : r.form = some form) (hfile : form.wasmBinary = some (some bytes)) :
    wasmSource ext r = .ok
      { name := form.value "name", version := form.value "version"
        trigger := form.value "trigger", storageUrl := none, configJSON := form.value "config"
        wasmBytes := some bytes, enabled := form.value "enabled" ≠ "false" } := by
  rw [wasmSource, if_pos hmultipart, hform, wasmSourceOfForm, hfile]

/-- The digest of a new plugin is computed from the file that is stored with it. -/
theorem createWasmPlugin_writesDigest {types : ColumnTypes}
    (hempty : ∀ tenantId, ext.uuidParse tenantParam = some tenantId →
      ¬ r.UploadsEmptyFile types) :
    (createWasmPlugin ext r tenantParam).Performs (Query.WritesDigest ext types) := by
  -- the statement is reached only after all checks on the upload
  apply Performs.bind_attempt
  intro tenantId htenant
  have hempty := hempty tenantId (parseID_eq_ok.mp htenant)
  refine Performs.bind_returns (Q := fun new : UUID → Time → WasmPlugin =>
    ∀ id now, (new id now).Storable types → (new id now).DigestTrue ext) trivial ?_ ?_
  · apply Returns.attempt_bind_ok
    intro source hsource
    apply Returns.attempt_bind_ok
    intro _ hname
    apply Returns.attempt_bind_ok
    intro _ htrigger id now hstorable hurl
    rcases wasmSource_cases hsource with
      ⟨hmultipart, -, form, bytes, hform, hfile, hbytes⟩ | ⟨⟨url, hsome⟩, -⟩
    · refine ⟨bytes, hbytes, ?_⟩
      cases bytes with
      | nil =>
        -- the upload of an empty file that has come through all checks
        rw [wasmSource_of_form hmultipart hform hfile] at hsource
        cases hsource
        refine absurd ⟨hmultipart, form, hform, hfile, ?_, require_eq_ok.mp htrigger, ?_,
          hstorable.config⟩ hempty
        · simpa using require_eq_ok.mp hname
        · intro text htext
          refine eq_false_of_ne_true (List.any_eq_false.mp hstorable.texts text ?_)
          simp only [Table.texts]
          rcases List.mem_cons.mp htext with rfl | htext
          · simp
          · rw [List.mem_singleton.mp htext]
            simp
      | cons b bytes => simp only [hbytes]
    · exact absurd (hsome.symm.trans hurl) (by simp)
  · intro new hnew
    apply Performs.bind (orFail_performs hnew)
    intro created
    exact Performs.pure _

/-- What a patch writes back is the pair that it has read, with or without another place
    of storage. -/
theorem updateWasmPlugin_keeps (hs : s.db.DigestsTrue ext) :
    (updateWasmPlugin ext r tenantParam idParam).Keeps (Postgres.exec server) (fun _ _ => True)
      (fun s => s.db.DigestsTrue ext) (fun _ _ => True) s := by
  apply Keeps.bind_attempt
  intro tenantId _
  apply Keeps.bind_attempt
  intro id _
  refine Keeps.bind (P := fun (existing : WasmPlugin) _ => existing.DigestTrue ext)
    (fun _ => trivial) (orFail_keeps fun s' _ hs' => ?_) hs ?_
  · refine ⟨⟨trivial, by rwa [Postgres.exec_selectOne_db]⟩, fun existing hexisting _ _ _ => ?_⟩
    have hfind := Postgres.find?_of_exec_selectOne server s' hexisting
    exact hs' existing (List.mem_of_find?_eq_some hfind)
  · intro existing s' _ hexisting
    apply Performs.keeps_digests
    refine Performs.bind_returns (Q := fun set : Time → WasmPlugin → WasmPlugin =>
      ∀ now row, (set now row).DigestTrue ext) trivial ?_ ?_
    · apply Returns.attempt_bind
      intro req
      apply Returns.attempt_bind
      intro _ now row hurl
      -- a patch sets the place of storage but never clears it
      exact hexisting (Option.or_eq_none_iff.mp hurl).2
    · intro set hset
      apply Performs.bind (orFail_performs hset)
      intro updated
      exact Performs.pure _

/-- Whatever the endpoint, its statements keep the digests true. -/
theorem Endpoint.handler_keepsDigests (endpoint : Endpoint) (hs : s.db.DigestsTrue ext)
    (hempty : ∀ tenant tenantId, endpoint = .inTenant tenant .createWasmPlugin →
      ext.uuidParse tenant = some tenantId → ¬ r.UploadsEmptyFile server.types) :
    (endpoint.handler ext r).Keeps (Postgres.exec server) (fun _ _ => True)
      (fun s => s.db.DigestsTrue ext) (fun _ _ => True) s := by
  -- an endpoint that writes no plugin
  have hother : ∀ endpoint : Endpoint, endpoint.write ≠ some (.insert .wasmPlugins) →
      endpoint.write ≠ some (.update .wasmPlugins) →
      (endpoint.handler ext r).Keeps (Postgres.exec server) (fun _ _ => True)
        (fun s => s.db.DigestsTrue ext) (fun _ _ => True) s := fun endpoint hinsert hupdate =>
    Performs.keeps_digests ((endpoint.handler_performs ext r).mono fun _ hq =>
      hq.writesDigest hinsert hupdate)
  cases endpoint with
  | inTenant tenant endpoint =>
    cases endpoint with
    | createWasmPlugin =>
      exact Performs.keeps_digests (createWasmPlugin_writesDigest fun tenantId =>
        hempty tenant tenantId rfl)
    | updateWasmPlugin id => exact updateWasmPlugin_keeps hs
    | _ => exact hother _ nofun nofun
  | _ => exact hother _ nofun nofun

end Handlers

/-! ## Interleavings -/

namespace Deployment

/-- The action is a request to create a plugin from a file without a byte, by a caller who may
    and below a tenant id that parses. -/
def UploadsEmptyFile (api : Deployment) : Action → Prop
  | .request (.inTenant tenant .createWasmPlugin) r =>
    middlewares api.oidcMode r (.inTenant tenant .createWasmPlugin) = .ok () ∧
      (∃ tenantId, api.ext.uuidParse tenant = some tenantId) ∧
      r.UploadsEmptyFile api.server.types
  | _ => False

/-- In every state that an interleaving of requests reaches, a plugin that is not stored
    elsewhere has the digest of its binary, if no request uploads an empty file and is
    acceptable otherwise. -/
theorem digestsTrue_interleave (api : Deployment) (actions : List Action)
    (hempty : ∀ a ∈ actions, ¬ api.UploadsEmptyFile a) :
    (api.interleave actions).state.db.DigestsTrue api.ext := by
  -- every waiting handler keeps the digests true
  have hsafe : (api.interleave actions).Safe (Postgres.exec api.server) (fun _ _ => True)
      (fun s => s.db.DigestsTrue api.ext) := by
    apply List.foldl_keeps (P := fun serving : Serving => serving.Safe (Postgres.exec api.server)
      (fun _ _ => True) (fun s => s.db.DigestsTrue api.ext))
    · exact ⟨fun _ hplugin => (nomatch hplugin), fun x hx => nomatch hx⟩
    · intro pre a post hactions hpre
      cases a with
      | request endpoint r =>
        have hrequest : ¬ api.UploadsEmptyFile (.request endpoint r) := by
          apply hempty
          rw [hactions]
          exact List.mem_append_right _ List.mem_cons_self
        refine hpre.start (Keeps.bind_attempt fun _ hallowed =>
          endpoint.handler_keepsDigests hpre.1 fun tenant tenantId htenant hid hupload => ?_)
        subst htenant
        exact hrequest ⟨hallowed, ⟨tenantId, hid⟩, hupload⟩
      | statement i => exact hpre.step (fun _ => trivial) (fun _ _ _ _ _ => trivial) i
  exact hsafe.1

/-- The digests of the empty file and of a module without sections. -/
def hashing : Deployment :=
  { counting with
    ext := { counting.ext with
      sha256Hex := fun bytes =>
        if bytes = [] then "e3b0c44298fc1c149afbf4c8996fb92427ae41e4649b934ca495991b7852b855"
        else "93a44bbb96c751218e4c00d479e4c14358122a389acca16205b1e4d0dc5f9476" } }

/-- The upload of a plugin. -/
def upload (file : Bytes) : Request where
  auth := .missing
  query := fun _ => ""
  contentType := "multipart/form-data; boundary=form"
  body := none
  form := some
    { value := fun field =>
        if field = "name" then "auth" else if field = "config" then "\x7b\x7d" else ""
      wasmBinary := some (some file) }

/-- A tenant is created, and then a plugin of it. -/
def uploading (file : Bytes) : List Action :=
  [.request .createTenant (jsonRequest [("name", .str "Acme"), ("slug", .str "acme")]),
    .statement 0,
    .request (.inTenant "1" .createWasmPlugin) (upload file),
    .statement 1]

/-- The upload of a module is stored with its digest. -/
theorem uploading_digestTrue :
    (hashing.interleave (uploading [0x00, 0x61, 0x73, 0x6d, 1, 0, 0, 0])).state.db.DigestsTrue
        hashing.ext ∧
      ((hashing.interleave (uploading [0x00, 0x61, 0x73, 0x6d, 1, 0, 0, 0])).state.db.rows
        .wasmPlugins).length = 1 := by
  refine ⟨digestsTrue_interleave hashing (uploading [0x00, 0x61, 0x73, 0x6d, 1, 0, 0, 0])
    fun a ha => ?_, by decide⟩
  simp only [uploading, List.mem_cons, List.not_mem_nil, or_false] at ha
  rcases ha with rfl | rfl | rfl | rfl
  · exact id
  · exact id
  · -- the file has bytes
    rintro ⟨-, -, -, form, hform, hfile, -⟩
    cases hform
    cases hfile
  · exact id

/-- A file without a byte is stored with the placeholder of a plugin that is stored
    elsewhere. -/
theorem empty_upload_digest :
    ¬ ∀ (api : Deployment) (actions : List Action),
      (api.interleave actions).state.db.DigestsTrue api.ext := by
  intro h
  -- a file without bytes is stored without a digest
  have hrows : (hashing.interleave (uploading [])).state.db.rows .wasmPlugins =
      [⟨2, 1, "auth", "0.1.0", "both", "storage-backed", none, some [], "\x7b\x7d", true, 1,
        1⟩] := by
    decide
  obtain ⟨bytes, hbytes, hdigest⟩ := h hashing (uploading []) _
    (by rw [hrows]; exact List.mem_singleton.mpr rfl) rfl
  cases hbytes
  revert hdigest
  decide

end Deployment

end Barqium.Native.ControlApi
