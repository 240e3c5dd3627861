import Barqium.Native.ControlApi.Handlers

/-!
# Handlers of AI providers, policies, plugins and regions

Model of `ai.go`, `rate_limit.go`, `wasm.go` and `region.go` in `internal/handler`.
-/

namespace Barqium.Native.ControlApi

open Program (attempt)

/-! ## AI providers -/

def validProviders : List String := ["openai", "anthropic", "groq", "ollama", "bedrock"]

def validateProvider (provider : String) : Except Response Unit :=
  require (validProviders.contains provider)
    (writeError 422 "provider must be one of: openai, anthropic, groq, ollama, bedrock")

structure CreateAiProviderRequest where
  name : String := ""
  provider : String := ""
  baseUrl : Option String := none
  apiKeyEnv : Option String := none
  enabled : Option Bool := none

abbrev UpdateAiProviderRequest := CreateAiProviderRequest

def CreateAiProviderRequest.set (req : CreateAiProviderRequest) (key : String) (v : Json) :
    Option CreateAiProviderRequest :=
  match key with
  | "name" => (goValue goString req.name v).map fun x => { req with name := x }
  | "provider" => (goValue goString req.provider v).map fun x => { req with provider := x }
  | "base_url" => (goPointer goString v).map fun x => { req with baseUrl := x }
  | "api_key_env" => (goPointer goString v).map fun x => { req with apiKeyEnv := x }
  | "enabled" => (goPointer goBool v).map fun x => { req with enabled := x }
  | _ => some req

def createAiProvider (ext : Ext) (r : Request) (tenant : String) : Handler :=
  createInTenant .aiProviders "provider name already exists in tenant" ext tenant
    fun tenantId => attempt do
      let req ← decodeBody CreateAiProviderRequest.set {} r
      require (req.name ≠ "") (writeError 422 "name is required")
      validateProvider req.provider
      return fun id now =>
        ({ id, tenantId, name := req.name, provider := req.provider
           baseUrl := req.baseUrl, apiKeyEnv := req.apiKeyEnv
           enabled := req.enabled.getD true
           createdAt := now, updatedAt := now } : AiProvider)

def listAiProviders (ext : Ext) (r : Request) (tenant : String) : Handler :=
  listInTenant .aiProviders (fun (a b : AiProvider) => b.createdAt ≤ a.createdAt) ext r tenant

def getAiProvider (ext : Ext) (tenant id : String) : Handler :=
  getInTenant .aiProviders "invalid provider id" "provider not found" ext tenant id

def updateAiProvider (ext : Ext) (r : Request) (tenant id : String) : Handler :=
  updateInTenant .aiProviders "invalid provider id" "provider not found"
    "provider name already exists in tenant" ext tenant id
    fun _ (existing : AiProvider) => attempt do
      let req : UpdateAiProviderRequest ← decodeBody CreateAiProviderRequest.set {} r
      if req.provider ≠ "" then validateProvider req.provider
      return fun now (row : AiProvider) =>
        ({ row with
           name := provided req.name existing.name
           provider := provided req.provider existing.provider
           -- an empty text behind a pointer does overwrite
           baseUrl := req.baseUrl.or existing.baseUrl
           apiKeyEnv := req.apiKeyEnv.or existing.apiKeyEnv
           enabled := req.enabled.getD existing.enabled
           updatedAt := now } : AiProvider)

def deleteAiProvider (ext : Ext) (tenant id : String) : Handler :=
  deleteInTenant .aiProviders "invalid provider id" ext tenant id

/-! ## AI model policies -/

structure CreateAiModelPolicyRequest where
  model : String := ""
  maxTokensPerRequest : Option Int32 := none
  budgetUsdPerDay : Option String := none
  fallbackModel : Option String := none
  enabled : Option Bool := none

abbrev UpdateAiModelPolicyRequest := CreateAiModelPolicyRequest

def CreateAiModelPolicyRequest.set (req : CreateAiModelPolicyRequest) (key : String) (v : Json) :
    Option CreateAiModelPolicyRequest :=
  match key with
  | "model" => (goValue goString req.model v).map fun x => { req with model := x }
  | "max_tokens_per_request" =>
    (goPointer goInt32 v).map fun x => { req with maxTokensPerRequest := x }
  | "budget_usd_per_day" => (goPointer goString v).map fun x => { req with budgetUsdPerDay := x }
  | "fallback_model" => (goPointer goString v).map fun x => { req with fallbackModel := x }
  | "enabled" => (goPointer goBool v).map fun x => { req with enabled := x }
  | _ => some req

/-- The provider named in the URL is not looked up: only the foreign key is checked. -/
def createAiModelPolicy (ext : Ext) (r : Request) (tenant provider : String) : Handler :=
  createInTenant .aiModelPolicies "model policy already exists for this provider and model" ext
    tenant fun tenantId => attempt do
      let providerId ← parseProviderID ext provider
      let req ← decodeBody CreateAiModelPolicyRequest.set {} r
      require (req.model ≠ "") (writeError 422 "model is required")
      -- the provider is not compared with the tenant
      return fun id now =>
        ({ id, tenantId, providerId, model := req.model
           maxTokensPerRequest := positiveOr 4096 req.maxTokensPerRequest
           budgetUsdPerDay := req.budgetUsdPerDay, fallbackModel := req.fallbackModel
           enabled := req.enabled.getD true
           createdAt := now, updatedAt := now } : AiModelPolicy)

def listAiModelPolicies (ext : Ext) (r : Request) (tenant provider : String) : Handler := do
  let tenantId ← attempt (parseTenantID ext tenant)
  let providerId ← attempt (parseProviderID ext provider)
  let (limit, offset) := parsePagination r
  let rows ← orFail
    (.selectMany .aiModelPolicies
      (fun (p : AiModelPolicy) => p.providerId = providerId && p.tenantId = tenantId)
      (fun (a b : AiModelPolicy) => b.createdAt ≤ a.createdAt) limit offset) internalError
  return ⟨200, .rows .aiModelPolicies rows⟩

/-- The provider in the URL is not used. -/
def getAiModelPolicy (ext : Ext) (tenant policy : String) : Handler :=
  getInTenant .aiModelPolicies "invalid policy id" "model policy not found" ext tenant policy

def updateAiModelPolicy (ext : Ext) (r : Request) (tenant policy : String) : Handler :=
  updateInTenant .aiModelPolicies "invalid policy id" "model policy not found"
    "model policy already exists for this provider and model" ext tenant policy
    fun _ (existing : AiModelPolicy) => attempt do
      let req : UpdateAiModelPolicyRequest ← decodeBody CreateAiModelPolicyRequest.set {} r
      return fun now (row : AiModelPolicy) =>
        ({ row with
           model := provided req.model existing.model
           maxTokensPerRequest := positiveOr existing.maxTokensPerRequest req.maxTokensPerRequest
           budgetUsdPerDay := req.budgetUsdPerDay.or existing.budgetUsdPerDay
           fallbackModel := req.fallbackModel.or existing.fallbackModel
           enabled := req.enabled.getD existing.enabled
           updatedAt := now } : AiModelPolicy)

def deleteAiModelPolicy (ext : Ext) (tenant policy : String) : Handler :=
  deleteInTenant .aiModelPolicies "invalid policy id" ext tenant policy

/-! ## Rate limit policies -/

def validScopes : List String := ["tenant", "consumer", "route", "ip"]

def validAlgorithms : List String := ["token_bucket", "sliding_window", "fixed_window"]

structure RateLimitPolicyRequest where
  name : String := ""
  scope : String := ""
  algorithm : String := ""
  rateLimit : Int32 := 0
  windowSecs : Int32 := 0
  burstLimit : Option Int32 := none
  enabled : Option Bool := none

def RateLimitPolicyRequest.set (req : RateLimitPolicyRequest) (key : String) (v : Json) :
    Option RateLimitPolicyRequest :=
  match key with
  | "name" => (goValue goString req.name v).map fun x => { req with name := x }
  | "scope" => (goValue goString req.scope v).map fun x => { req with scope := x }
  | "algorithm" => (goValue goString req.algorithm v).map fun x => { req with algorithm := x }
  | "rate_limit" => (goValue goInt32 req.rateLimit v).map fun x => { req with rateLimit := x }
  | "window_secs" => (goValue goInt32 req.windowSecs v).map fun x => { req with windowSecs := x }
  | "burst_limit" => (goPointer goInt32 v).map fun x => { req with burstLimit := x }
  | "enabled" => (goPointer goBool v).map fun x => { req with enabled := x }
  | _ => some req

def validateRateLimitRequest (req : RateLimitPolicyRequest) : Except Response Unit := do
  require (req.name ≠ "") (writeError 422 "name is required")
  require (req.scope = "" || validScopes.contains req.scope)
    (writeError 422 "invalid scope; must be tenant|consumer|route|ip")
  require (req.algorithm = "" || validAlgorithms.contains req.algorithm)
    (writeError 422 "invalid algorithm; must be token_bucket|sliding_window|fixed_window")
  require (0 < req.rateLimit) (writeError 422 "rate_limit must be > 0")
  require (0 < req.windowSecs) (writeError 422 "window_secs must be > 0")

def createRateLimitPolicy (ext : Ext) (r : Request) (tenant : String) : Handler :=
  createInTenant .rateLimitPolicies "rate limit policy with this name already exists in tenant" ext
    tenant fun tenantId => attempt do
      let req ← decodeBody RateLimitPolicyRequest.set {} r
      validateRateLimitRequest req
      return fun id now =>
        ({ id, tenantId, name := req.name
           scope := provided req.scope "tenant"
           algorithm := provided req.algorithm "sliding_window"
           -- the burst limit is stored as it was sent
           rateLimit := req.rateLimit, windowSecs := req.windowSecs, burstLimit := req.burstLimit
           enabled := req.enabled.getD true
           createdAt := now, updatedAt := now } : RateLimitPolicy)

def listRateLimitPolicies (ext : Ext) (r : Request) (tenant : String) : Handler :=
  listInTenant .rateLimitPolicies (fun (a b : RateLimitPolicy) => a.name ≤ b.name) ext r tenant

def getRateLimitPolicy (ext : Ext) (tenant id : String) : Handler :=
  getInTenant .rateLimitPolicies "invalid policy id" "rate limit policy not found" ext tenant id

def updateRateLimitPolicy (ext : Ext) (r : Request) (tenant id : String) : Handler :=
  updateInTenant .rateLimitPolicies "invalid policy id" "rate limit policy not found"
    "rate limit policy with this name already exists in tenant" ext tenant id
    fun _ (existing : RateLimitPolicy) => attempt do
      let req ← decodeBody RateLimitPolicyRequest.set {} r
      require (req.scope = "" || validScopes.contains req.scope) (writeError 422 "invalid scope")
      require (req.algorithm = "" || validAlgorithms.contains req.algorithm)
        (writeError 422 "invalid algorithm")
      return fun now (row : RateLimitPolicy) =>
        ({ row with
           name := provided req.name existing.name
           scope := provided req.scope existing.scope
           algorithm := provided req.algorithm existing.algorithm
           -- zero is what an absent number leaves, so it means not provided
           rateLimit := positiveOr existing.rateLimit (some req.rateLimit)
           windowSecs := positiveOr existing.windowSecs (some req.windowSecs)
           burstLimit := req.burstLimit.or existing.burstLimit
           enabled := req.enabled.getD existing.enabled
           updatedAt := now } : RateLimitPolicy)

def deleteRateLimitPolicy (ext : Ext) (tenant id : String) : Handler :=
  deleteInTenant .rateLimitPolicies "invalid policy id" ext tenant id

/-! ## WASM plugins -/

def validTriggers : List String := ["on_request", "on_response", "both"]

structure CreateWasmPluginRequest where
  name : String := ""
  version : String := ""
  trigger : String := ""
  storageUrl : Option String := none
  /-- A `json.RawMessage`: set for a null as well. -/
  config : Option Json := none
  enabled : Option Bool := none

def CreateWasmPluginRequest.set (req : CreateWasmPluginRequest) (key : String) (v : Json) :
    Option CreateWasmPluginRequest :=
  match key with
  | "name" => (goValue goString req.name v).map fun x => { req with name := x }
  | "version" => (goValue goString req.version v).map fun x => { req with version := x }
  | "trigger" => (goValue goString req.trigger v).map fun x => { req with trigger := x }
  | "storage_url" => (goPointer goString v).map fun x => { req with storageUrl := x }
  | "config" => some { req with config := some v }
  | "enabled" => (goPointer goBool v).map fun x => { req with enabled := x }
  | _ => some req

/-- What a creation request provides, whichever way it comes. -/
structure WasmSource where
  name : String
  version : String
  trigger : String
  storageUrl : Option String
  configJSON : String
  wasmBytes : Option Bytes
  enabled : Bool

/-- A multipart upload. The config of a form without one is the empty text. -/
def wasmSourceOfForm (form : Option MultipartForm) : Except Response WasmSource :=
  match form with
  | none => .error (writeError 400 "failed to parse multipart form")
  | some form =>
    match form.wasmBinary with
    | none => .error (writeError 400 "wasm_binary file is required for multipart upload")
    | some none => .error (writeError 500 "failed to read wasm binary")
    | some (some bytes) =>
      .ok { name := form.value "name", version := form.value "version"
            trigger := form.value "trigger", storageUrl := none
            configJSON := form.value "config", wasmBytes := some bytes
            -- any other text than `false` enables
            enabled := form.value "enabled" ≠ "false" }

/-- JSON metadata, which must name where the binary is stored. -/
def wasmSourceOfBody (ext : Ext) (r : Request) : Except Response WasmSource := do
  let req ← decodeBody CreateWasmPluginRequest.set {} r
  require req.storageUrl.isSome
    (writeError 422 "provide wasm_binary via multipart/form-data or storage_url via JSON")
  return { name := req.name, version := req.version, trigger := req.trigger
           storageUrl := req.storageUrl
           configJSON := (req.config.map ext.rawMessage).getD "\x7b\x7d"
           wasmBytes := none
           enabled := req.enabled.getD true }

/-- The metadata of a new plugin, by the content type of the request. -/
def wasmSource (ext : Ext) (r : Request) : Except Response WasmSource :=
  if "multipart/form-data".toList.isPrefixOf r.contentType.toList then wasmSourceOfForm r.form
  else wasmSourceOfBody ext r

def createWasmPlugin (ext : Ext) (r : Request) (tenant : String) : Handler :=
  createInTenant .wasmPlugins "plugin with same name and version already exists in tenant" ext
    tenant fun tenantId => attempt do
      let source ← wasmSource ext r
      require (source.name ≠ "") (writeError 422 "name is required")
      let trigger := provided source.trigger "both"
      require (validTriggers.contains trigger)
        (writeError 422 "invalid trigger; must be on_request|on_response|both")
      let sha256 :=
        -- the length is tested, so an upload without bytes counts as storage-backed
        match source.wasmBytes with
        | some (b :: bytes) => ext.sha256Hex (b :: bytes)
        | _ => "storage-backed"
      return fun id now =>
        ({ id, tenantId, name := source.name
           version := provided source.version "0.1.0"
           trigger, sha256, storageUrl := source.storageUrl, wasmBinary := source.wasmBytes
           config := source.configJSON, enabled := source.enabled
           createdAt := now, updatedAt := now } : WasmPlugin)

def listWasmPlugins (ext : Ext) (r : Request) (tenant : String) : Handler :=
  listInTenant .wasmPlugins
    (fun (a b : WasmPlugin) => a.name < b.name || (a.name = b.name && a.version ≤ b.version))
    ext r tenant

def getWasmPlugin (ext : Ext) (tenant id : String) : Handler :=
  getInTenant .wasmPlugins "invalid plugin id" "wasm plugin not found" ext tenant id

def downloadWasmBinary (ext : Ext) (tenant id : String) : Handler := do
  let tenantId ← attempt (parseTenantID ext tenant)
  let id ← attempt (parseID ext "invalid plugin id" id)
  let plugin ← orFail (.selectOne .wasmPlugins (rowIn .wasmPlugins id tenantId))
    (notFoundOr "wasm plugin not found")
  return wasmDownload plugin
where
  wasmDownload (plugin : WasmPlugin) : Response :=
    match plugin.wasmBinary, plugin.storageUrl with
    -- a stored binary comes first, then the place it is stored at
    | some (b :: bytes), _ =>
      ⟨200, .wasm ("attachment; filename=\"" ++ plugin.name ++ ".wasm\"") plugin.sha256
        (b :: bytes)⟩
    | _, some url => ⟨307, .redirect url⟩
    | _, none => writeError 404 "no binary stored for this plugin"

/-- The digest and the binary of the row are kept. -/
def updateWasmPlugin (ext : Ext) (r : Request) (tenant id : String) : Handler :=
  updateInTenant .wasmPlugins "invalid plugin id" "wasm plugin not found"
    "plugin with same name and version already exists" ext tenant id
    fun _ (existing : WasmPlugin) => attempt do
      let req ← decodeBody CreateWasmPluginRequest.set {} r
      require (req.trigger = "" || validTriggers.contains req.trigger)
        (writeError 422 "invalid trigger")
      return fun now (row : WasmPlugin) =>
        ({ row with
           name := provided req.name existing.name
           version := provided req.version existing.version
           trigger := provided req.trigger existing.trigger
           -- a new place of storage does not touch the digest
           sha256 := existing.sha256
           storageUrl := req.storageUrl.or existing.storageUrl
           wasmBinary := existing.wasmBinary
           config := (req.config.map ext.rawMessage).getD existing.config
           enabled := req.enabled.getD existing.enabled
           updatedAt := now } : WasmPlugin)

def deleteWasmPlugin (ext : Ext) (tenant id : String) : Handler :=
  deleteInTenant .wasmPlugins "invalid plugin id" ext tenant id

/-! ## Regions -/

structure CreateRegionRequest where
  name : String := ""
  kafkaBrokers : String := ""
  isPrimary : Bool := false
  mm2GroupId : Option String := none
  enabled : Option Bool := none

def CreateRegionRequest.set (req : CreateRegionRequest) (key : String) (v : Json) :
    Option CreateRegionRequest :=
  match key with
  | "name" => (goValue goString req.name v).map fun x => { req with name := x }
  | "kafka_brokers" =>
    (goValue goString req.kafkaBrokers v).map fun x => { req with kafkaBrokers := x }
  | "is_primary" => (goValue goBool req.isPrimary v).map fun x => { req with isPrimary := x }
  | "mm2_group_id" => (goPointer goString v).map fun x => { req with mm2GroupId := x }
  | "enabled" => (goPointer goBool v).map fun x => { req with enabled := x }
  | _ => some req

structure UpdateRegionRequest where
  name : String := ""
  kafkaBrokers : String := ""
  isPrimary : Option Bool := none
  mm2GroupId : Option String := none
  enabled : Option Bool := none

def UpdateRegionRequest.set (req : UpdateRegionRequest) (key : String) (v : Json) :
    Option UpdateRegionRequest :=
  match key with
  | "name" => (goValue goString req.name v).map fun x => { req with name := x }
  | "kafka_brokers" =>
    (goValue goString req.kafkaBrokers v).map fun x => { req with kafkaBrokers := x }
  | "is_primary" => (goPointer goBool v).map fun x => { req with isPrimary := x }
  | "mm2_group_id" => (goPointer goString v).map fun x => { req with mm2GroupId := x }
  | "enabled" => (goPointer goBool v).map fun x => { req with enabled := x }
  | _ => some req

def createRegion (r : Request) : Handler :=
  createRow .regions "region name already exists" do
    let req ← decodeBody CreateRegionRequest.set {} r
    require (req.name ≠ "") (writeError 422 "name is required")
    require (req.kafkaBrokers ≠ "") (writeError 422 "kafka_brokers is required")
    return fun id now =>
      ({ id, name := req.name, kafkaBrokers := req.kafkaBrokers, isPrimary := req.isPrimary
         mm2GroupId := req.mm2GroupId, enabled := req.enabled.getD true
         createdAt := now, updatedAt := now } : Region)

def listRegions (r : Request) : Handler :=
  listAll .regions (fun (a b : Region) => b.createdAt ≤ a.createdAt) r

def getRegion (ext : Ext) (id : String) : Handler :=
  getById .regions "invalid region id" "region not found" ext id

def updateRegion (ext : Ext) (r : Request) (id : String) : Handler :=
  updateById .regions "invalid region id" "region not found" "region name already exists" ext id
    fun (existing : Region) => do
      let req ← decodeBody UpdateRegionRequest.set {} r
      return fun now (row : Region) =>
        ({ row with
           name := provided req.name existing.name
           kafkaBrokers := provided req.kafkaBrokers existing.kafkaBrokers
           -- the other regions are not looked at
           isPrimary := req.isPrimary.getD existing.isPrimary
           mm2GroupId := req.mm2GroupId.or existing.mm2GroupId
           enabled := req.enabled.getD existing.enabled
           updatedAt := now } : Region)

def deleteRegion (ext : Ext) (id : String) : Handler :=
  deleteById .regions "invalid region id" ext id

end Barqium.Native.ControlApi
