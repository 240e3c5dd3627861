import Barqium.Spec.HandlersCorrect

/-!
# Fields of a patch

What a PATCH request provides, as its handler understands it: an empty text, a number
that is not positive and a missing or null field are not provided. Every PATCH handler
reads the row, puts what the request provides into it, and writes all columns back.

## Key results

- `Resource.handle_patches`: this shape, for every resource.
-/

namespace Barqium.Native.ControlApi

open Program

/-! ## Columns -/

/-- The columns that a patch may set. -/
inductive Column where
  | name | slug | enabled
  | url | timeoutMs
  | method | pathPrefix | host | upstreamId
  | provider | baseUrl | apiKeyEnv
  | model | maxTokensPerRequest | budgetUsdPerDay | fallbackModel
  | scope | algorithm | rateLimit | windowSecs | burstLimit
  deriving Repr, DecidableEq

inductive Value where
  | text (s : String)
  | bool (b : Bool)
  | int (n : Int32)
  | uuid (id : UUID)
  deriving Repr, DecidableEq

def Tenant.value (r : Tenant) : Column → Option Value
  | .name => some (.text r.name)
  | .slug => some (.text r.slug)
  | .enabled => some (.bool r.enabled)
  | _ => none

def Upstream.value (r : Upstream) : Column → Option Value
  | .name => some (.text r.name)
  | .url => some (.text r.url)
  | .timeoutMs => some (.int r.timeoutMs)
  | .enabled => some (.bool r.enabled)
  | _ => none

def Route.value (r : Route) : Column → Option Value
  | .method => some (.text r.method)
  | .pathPrefix => some (.text r.pathPrefix)
  | .host => some (.text r.host)
  | .upstreamId => some (.uuid r.upstreamId)
  | .enabled => some (.bool r.enabled)
  | _ => none

def AiProvider.value (r : AiProvider) : Column → Option Value
  | .name => some (.text r.name)
  | .provider => some (.text r.provider)
  | .baseUrl => r.baseUrl.map .text
  | .apiKeyEnv => r.apiKeyEnv.map .text
  | .enabled => some (.bool r.enabled)
  | _ => none

def AiModelPolicy.value (r : AiModelPolicy) : Column → Option Value
  | .model => some (.text r.model)
  | .maxTokensPerRequest => some (.int r.maxTokensPerRequest)
  | .budgetUsdPerDay => r.budgetUsdPerDay.map .text
  | .fallbackModel => r.fallbackModel.map .text
  | .enabled => some (.bool r.enabled)
  | _ => none

def RateLimitPolicy.value (r : RateLimitPolicy) : Column → Option Value
  | .name => some (.text r.name)
  | .scope => some (.text r.scope)
  | .algorithm => some (.text r.algorithm)
  | .rateLimit => some (.int r.rateLimit)
  | .windowSecs => some (.int r.windowSecs)
  | .burstLimit => r.burstLimit.map .int
  | .enabled => some (.bool r.enabled)
  | _ => none

/-- The value of a row in a column, none for a null. -/
def Table.value : (t : Table) → t.Row → Column → Option Value
  | .tenants, r => Tenant.value r
  | .upstreams, r => Upstream.value r
  | .routes, r => Route.value r
  | .aiProviders, r => AiProvider.value r
  | .aiModelPolicies, r => AiModelPolicy.value r
  | .rateLimitPolicies, r => RateLimitPolicy.value r
  | _, _ => fun _ => none

/-! ## What a request provides -/

def providedText (s : String) : Option Value := if s = "" then none else some (.text s)

def providedPositive (n : Option Int32) : Option Value := (n.filter (0 < ·)).map .int

def CreateTenantRequest.provided (req : UpdateTenantRequest) : Column → Option Value
  | .name => providedText req.name
  | .slug => providedText req.slug
  | .enabled => req.enabled.map .bool
  | _ => none

def CreateUpstreamRequest.provided (req : UpdateUpstreamRequest) : Column → Option Value
  | .name => providedText req.name
  | .url => providedText req.url
  | .timeoutMs => providedPositive req.timeoutMs
  | .enabled => req.enabled.map .bool
  | _ => none

/-- The method is stored in upper case. -/
def UpdateRouteRequest.provided (ext : Ext) (req : UpdateRouteRequest) : Column → Option Value
  | .method => if req.method = "" then none else some (.text (ext.toUpper req.method))
  | .pathPrefix => providedText req.pathPrefix
  | .host => providedText req.host
  | .upstreamId => req.upstreamId.map .uuid
  | .enabled => req.enabled.map .bool
  | _ => none

def CreateAiProviderRequest.provided (req : UpdateAiProviderRequest) : Column → Option Value
  | .name => providedText req.name
  | .provider => providedText req.provider
  | .baseUrl => req.baseUrl.map .text
  | .apiKeyEnv => req.apiKeyEnv.map .text
  | .enabled => req.enabled.map .bool
  | _ => none

def CreateAiModelPolicyRequest.provided (req : UpdateAiModelPolicyRequest) : Column → Option Value
  | .model => providedText req.model
  | .maxTokensPerRequest => providedPositive req.maxTokensPerRequest
  | .budgetUsdPerDay => req.budgetUsdPerDay.map .text
  | .fallbackModel => req.fallbackModel.map .text
  | .enabled => req.enabled.map .bool
  | _ => none

def RateLimitPolicyRequest.provided (req : RateLimitPolicyRequest) : Column → Option Value
  | .name => providedText req.name
  | .scope => providedText req.scope
  | .algorithm => providedText req.algorithm
  | .rateLimit => providedPositive (some req.rateLimit)
  | .windowSecs => providedPositive (some req.windowSecs)
  | .burstLimit => req.burstLimit.map .int
  | .enabled => req.enabled.map .bool
  | _ => none

/-- The fields of the body, or none if it does not decode. -/
def providedBy {α : Type} (set : α → String → Json → Option α) (zero : α)
    (fields : α → Column → Option Value) (r : Request) : Column → Option Value :=
  match decodeBody set zero r with
  | .ok req => fields req
  | .error _ => fun _ => none

/-! ## Resources -/

/-- The resources with a PATCH endpoint, less plugins and regions. -/
inductive Resource where
  | tenant
  | upstream
  | route
  | aiProvider
  | aiModelPolicy
  | rateLimitPolicy
  deriving Repr, DecidableEq

/-- A PATCH request: the parameters in its URL and the rest. -/
structure PatchCall where
  tenantParam : String
  /-- The provider in the URL of a model policy. -/
  providerParam : String
  idParam : String
  request : Request

namespace Resource

def table : Resource → Table
  | tenant => .tenants
  | upstream => .upstreams
  | route => .routes
  | aiProvider => .aiProviders
  | aiModelPolicy => .aiModelPolicies
  | rateLimitPolicy => .rateLimitPolicies

def endpoint (call : PatchCall) : Resource → Endpoint
  | tenant => .updateTenant call.idParam
  | upstream => .inTenant call.tenantParam (.updateUpstream call.idParam)
  | route => .inTenant call.tenantParam (.updateRoute call.idParam)
  | aiProvider => .inTenant call.tenantParam (.updateAiProvider call.idParam)
  | aiModelPolicy =>
    .inTenant call.tenantParam (.updateAiModelPolicy call.providerParam call.idParam)
  | rateLimitPolicy => .inTenant call.tenantParam (.updateRateLimitPolicy call.idParam)

/-- The row with the ids: a tenant is known by its own id alone. -/
def target (id tenantId : UUID) : (res : Resource) → res.table.Row → Bool
  | tenant => rowAt .tenants id
  | upstream => rowIn .upstreams id tenantId
  | route => rowIn .routes id tenantId
  | aiProvider => rowIn .aiProviders id tenantId
  | aiModelPolicy => rowIn .aiModelPolicies id tenantId
  | rateLimitPolicy => rowIn .rateLimitPolicies id tenantId

/-- The URL has these ids. -/
def Targets (ext : Ext) (id tenantId : UUID) (call : PatchCall) (res : Resource) : Prop :=
  ext.uuidParse call.idParam = some id ∧
    (res ≠ tenant → ext.uuidParse call.tenantParam = some tenantId)

def provided (ext : Ext) (r : Request) : Resource → Column → Option Value
  | tenant => providedBy CreateTenantRequest.set {} CreateTenantRequest.provided r
  | upstream => providedBy CreateUpstreamRequest.set {} CreateUpstreamRequest.provided r
  | route => providedBy (UpdateRouteRequest.set ext) {} (UpdateRouteRequest.provided ext) r
  | aiProvider => providedBy CreateAiProviderRequest.set {} CreateAiProviderRequest.provided r
  | aiModelPolicy =>
    providedBy CreateAiModelPolicyRequest.set {} CreateAiModelPolicyRequest.provided r
  | rateLimitPolicy => providedBy RateLimitPolicyRequest.set {} RateLimitPolicyRequest.provided r

end Resource

/-! ## The shape of a patch -/

/-- The statement reads a row of another table. -/
def Query.ReadsOther (t : Table) : {β : Type} → Query β → Prop
  | _, .selectOne u _ => u ≠ t
  | _, _ => False

section Shape

variable (t : Table) (p : t.Row → Bool) (provided : Column → Option Value)

/-- The new row: what is provided, and what was read where nothing is. -/
def SetsPatch (existing : t.Row) (set : Time → t.Row → t.Row) : Prop :=
  ∀ now row, t.id (set now row) = t.id row ∧ t.tenant (set now row) = t.tenant row ∧
    ∀ c, t.value (set now row) c = (provided c).or (t.value existing c)

/-- A handler that has read `existing`: it may look at other tables, and writes. -/
inductive Merges (existing : t.Row) : Handler → Prop where
  | failed (response : Response) (h : response.Failed) : Merges existing (.done (.error response))
  | check (u : Table) (p' : u.Row → Bool) (k : Except DbError u.Row → Handler) (hu : u ≠ t)
      (hk : ∀ result, Merges existing (k result)) : Merges existing (.call (.selectOne u p') k)
  | write (set : Time → t.Row → t.Row) (k : Except DbError t.Row → Handler)
      (hset : SetsPatch t provided existing set)
      (hok : ∀ row, k (.ok row) = .done (.ok ⟨200, .row t row⟩))
      (herror : ∀ err, ∃ response : Response, response.Failed ∧
        k (.error err) = .done (.error response)) :
      Merges existing (.call (.updateOne t p set) k)

/-- A PATCH handler before it has read the row. -/
inductive Patches : Handler → Prop where
  | failed (response : Response) (h : response.Failed) : Patches (.done (.error response))
  | read (k : Except DbError t.Row → Handler)
      (hok : ∀ existing, Merges t p provided existing (k (.ok existing)))
      (herror : ∀ err, ∃ response : Response, response.Failed ∧
        k (.error err) = .done (.error response)) :
      Patches (.call (.selectOne t p) k)

/-- The part of a handler that turns the row it read into the one it writes. -/
structure BuildsPatch (existing : t.Row) (x : Program Query Response (Time → t.Row → t.Row)) :
    Prop where
  performs : x.Performs (Query.ReadsOther t)
  returns : x.Returns (SetsPatch t provided existing)
  raises : x.Raises Response.Failed

end Shape

section Handlers

variable {t : Table} {p : t.Row → Bool} {provided : Column → Option Value}

/-- A handler that makes the merge of a row merges it. -/
theorem BuildsPatch.merges {existing : t.Row} {x : Program Query Response (Time → t.Row → t.Row)}
    (h : BuildsPatch t provided existing x) (conflict : String) :
    Merges t p provided existing (do
      let set ← x
      let updated ← orFail (.updateOne t p set) (conflictOr conflict)
      return ⟨200, .row t updated⟩) := by
  obtain ⟨hperforms, hreturns, hraises⟩ := h
  induction x with
  | done result =>
    cases result with
    | ok set =>
      exact .write set _ hreturns (fun _ => rfl) fun err => ⟨_, conflictOr_failed conflict err, rfl⟩
    | error response => exact .failed response hraises
  | call q k ih =>
    cases q with
    -- before the `UPDATE` rows are only checked
    | selectOne u p' =>
      exact .check u p' _ hperforms.1 fun result =>
        ih result (hperforms.2 result) (hreturns result) (hraises result)
    | _ => exact hperforms.1.elim

/-- A patch that is built from the request and the row alone. -/
theorem BuildsPatch.attempt {existing : t.Row} {e : Except Response (Time → t.Row → t.Row)}
    (hreturns : (attempt e : Program Query Response _).Returns (SetsPatch t provided existing))
    (hraises : (attempt e : Program Query Response _).Raises Response.Failed) :
    BuildsPatch t provided existing (attempt e) :=
  ⟨trivial, hreturns, hraises⟩

/-- A PATCH endpoint below a tenant. -/
private theorem updateInTenant_patches {ext : Ext}
    {invalid notFound conflict tenantParam idParam : String}
    {id tenantId : UUID} {patch : UUID → t.Row → Program Query Response (Time → t.Row → t.Row)}
    (htenant : ext.uuidParse tenantParam = some tenantId) (hid : ext.uuidParse idParam = some id)
    (hpatch : ∀ existing, BuildsPatch t provided existing (patch tenantId existing)) :
    Patches t (rowIn t id tenantId) provided
      (updateInTenant t invalid notFound conflict ext tenantParam idParam patch) := by
  have htenant : parseTenantID ext tenantParam = .ok tenantId := parseID_eq_ok.mpr htenant
  have hid : parseID ext invalid idParam = .ok id := parseID_eq_ok.mpr hid
  unfold updateInTenant
  rw [htenant, hid]
  exact .read _ (fun existing => (hpatch existing).merges conflict)
    fun err => ⟨_, notFoundOr_failed notFound err, rfl⟩

/-- A patch by id merges what its request provides. -/
private theorem updateById_patches {ext : Ext} {invalid notFound conflict idParam : String}
    {id : UUID} {patch : t.Row → Except Response (Time → t.Row → t.Row)}
    (hid : ext.uuidParse idParam = some id)
    (hpatch : ∀ existing, BuildsPatch t provided existing (Program.attempt (patch existing))) :
    Patches t (rowAt t id) provided
      (updateById t invalid notFound conflict ext idParam patch) := by
  have hid : parseID ext invalid idParam = .ok id := parseID_eq_ok.mpr hid
  unfold updateById
  rw [hid]
  exact .read _ (fun existing => (hpatch existing).merges conflict)
    fun err => ⟨_, notFoundOr_failed notFound err, rfl⟩

end Handlers

/-! ## Merged values -/

/-- An empty text leaves the column. -/
@[simp] theorem text_provided (value existing : String) :
    (providedText value).getD (.text existing) = .text (provided value existing) := by
  unfold providedText provided
  split
  · rfl
  · rfl

/-- A number that is not positive leaves the column. -/
@[simp] theorem int_provided (value : Option Int32) (existing : Int32) :
    (providedPositive value).getD (.int existing) = .int (positiveOr existing value) := by
  cases value with
  | none => rfl
  | some n =>
    by_cases hn : 0 < n
    · simp [providedPositive, positiveOr, Option.filter, hn]
    · simp [providedPositive, positiveOr, Option.filter, hn]

/-- What a decoded body provides. -/
theorem providedBy_of_ok {α : Type} {set : α → String → Json → Option α} {zero req : α}
    {fields : α → Column → Option Value} {r : Request} (h : decodeBody set zero r = .ok req) :
    providedBy set zero fields r = fields req := by
  simp only [providedBy, h]

/-! ## The handlers -/

section Resources

variable {ext : Ext} {r : Request} {tenantParam idParam : String} {id tenantId : UUID}

/-- A provider that is refused. -/
private theorem validateProvider_failed {provider : String} (e : Response)
    (h : validateProvider provider = .error e) : e.Failed :=
  require_failed (writeError_failed (by decide) _) e h

/-- The patch of a tenant. -/
private theorem updateTenant_patches (hid : ext.uuidParse idParam = some id) :
    Patches .tenants (rowAt .tenants id) (Resource.tenant.provided ext r)
      (updateTenant ext r idParam) := by
  apply updateById_patches hid
  intro existing
  apply BuildsPatch.attempt
  · apply Returns.attempt_bind_ok
    intro req hdecode
    -- the columns of the new row, each given by the body or kept
    have hset : SetsPatch .tenants (Resource.tenant.provided ext r) existing
        fun now (row : Tenant) =>
          ({ row with
             name := provided req.name existing.name
             slug := provided req.slug existing.slug
             enabled := req.enabled.getD existing.enabled
             updatedAt := now } : Tenant) := by
      intro now row
      refine ⟨rfl, rfl, fun c => ?_⟩
      simp only [Resource.provided, providedBy_of_ok hdecode]
      cases c <;> simp [Table.value, Tenant.value, CreateTenantRequest.provided]
    dsimp only
    split <;> split
    all_goals
      repeat apply Returns.attempt_bind; intro _
      exact hset
  · -- the checks that can refuse the body
    apply Raises.attempt_bind decodeBody_failed
    intro req
    dsimp only
    split <;> split
    all_goals
      repeat
        apply Raises.attempt_bind (require_failed (writeError_failed (by decide) _))
        intro _
      trivial

/-- The patch of an upstream. -/
private theorem updateUpstream_patches (htenant : ext.uuidParse tenantParam = some tenantId)
    (hid : ext.uuidParse idParam = some id) :
    Patches .upstreams (rowIn .upstreams id tenantId) (Resource.upstream.provided ext r)
      (updateUpstream ext r tenantParam idParam) := by
  apply updateInTenant_patches htenant hid
  intro existing
  apply BuildsPatch.attempt
  · apply Returns.attempt_bind_ok
    intro req hdecode
    -- the columns of the new row, each given by the body or kept
    have hset : SetsPatch .upstreams (Resource.upstream.provided ext r) existing
        fun now (row : Upstream) =>
          ({ row with
             name := provided req.name existing.name
             url := provided req.url existing.url
             timeoutMs := positiveOr existing.timeoutMs req.timeoutMs
             enabled := req.enabled.getD existing.enabled
             updatedAt := now } : Upstream) := by
      intro now row
      refine ⟨rfl, rfl, fun c => ?_⟩
      simp only [Resource.provided, providedBy_of_ok hdecode]
      cases c <;> simp [Table.value, Upstream.value, CreateUpstreamRequest.provided]
    dsimp only
    split
    · apply Returns.attempt_bind
      intro _
      exact hset
    · exact hset
  · -- the URL may be refused
    apply Raises.attempt_bind decodeBody_failed
    intro req
    dsimp only
    split
    · apply Raises.attempt_bind validateURL_failed
      intro _
      trivial
    · trivial

/-- The upstream of the patch is looked up in another table. -/
private theorem updateRoute_patches (htenant : ext.uuidParse tenantParam = some tenantId)
    (hid : ext.uuidParse idParam = some id) :
    Patches .routes (rowIn .routes id tenantId) (Resource.route.provided ext r)
      (updateRoute ext r tenantParam idParam) := by
  apply updateInTenant_patches htenant hid
  intro existing
  -- the body is decoded before the upstream is looked up
  cases hdecode : decodeBody (UpdateRouteRequest.set ext) {} r with
  | error response => exact ⟨trivial, trivial, decodeBody_failed response hdecode⟩
  | ok req =>
    rw [attempt_ok_bind]
    -- the check reads another table
    have hcheck : ∀ id,
        (checkUpstreamInTenant id tenantId).Performs (Query.ReadsOther .routes) := by
      intro id
      apply Performs.bind (orFail_performs (show Table.upstreams ≠ .routes by decide))
      intro _
      exact Performs.pure _
    refine ⟨?_, ?_, ?_⟩
    · apply Performs.bind
      · cases req.upstreamId with
        | none => exact Performs.pure _
        | some upstreamId => exact hcheck upstreamId
      · intro _
        exact Performs.pure _
    · apply Returns.bind
      intro _ now row
      refine ⟨rfl, rfl, fun c => ?_⟩
      simp only [Resource.provided, providedBy_of_ok hdecode]
      cases c with
      | method =>
        show some (Value.text _) = Option.or (if req.method = "" then none else _) _
        split
        · rfl
        · rfl
      | _ => simp [Table.value, Route.value, UpdateRouteRequest.provided]
    · apply Raises.bind
      · cases req.upstreamId with
        | none => exact Raises.pure _
        | some upstreamId => exact checkUpstreamInTenant_raises
      · intro _
        exact Raises.pure _

/-- The patch of a provider. -/
private theorem updateAiProvider_patches (htenant : ext.uuidParse tenantParam = some tenantId)
    (hid : ext.uuidParse idParam = some id) :
    Patches .aiProviders (rowIn .aiProviders id tenantId) (Resource.aiProvider.provided ext r)
      (updateAiProvider ext r tenantParam idParam) := by
  apply updateInTenant_patches htenant hid
  intro existing
  apply BuildsPatch.attempt
  · apply Returns.attempt_bind_ok
    intro req hdecode
    -- the columns of the new row, each given by the body or kept
    have hset : SetsPatch .aiProviders (Resource.aiProvider.provided ext r) existing
        fun now (row : AiProvider) =>
          ({ row with
             name := provided req.name existing.name
             provider := provided req.provider existing.provider
             baseUrl := req.baseUrl.or existing.baseUrl
             apiKeyEnv := req.apiKeyEnv.or existing.apiKeyEnv
             enabled := req.enabled.getD existing.enabled
             updatedAt := now } : AiProvider) := by
      intro now row
      refine ⟨rfl, rfl, fun c => ?_⟩
      simp only [Resource.provided, providedBy_of_ok hdecode]
      cases c <;>
        simp [Table.value, AiProvider.value, CreateAiProviderRequest.provided, Option.map_or]
    dsimp only
    split
    · apply Returns.attempt_bind
      intro _
      exact hset
    · exact hset
  · -- the provider may be refused
    apply Raises.attempt_bind decodeBody_failed
    intro req
    dsimp only
    split
    · apply Raises.attempt_bind validateProvider_failed
      intro _
      trivial
    · trivial

/-- The patch of a model policy. -/
private theorem updateAiModelPolicy_patches (htenant : ext.uuidParse tenantParam = some tenantId)
    (hid : ext.uuidParse idParam = some id) :
    Patches .aiModelPolicies (rowIn .aiModelPolicies id tenantId)
      (Resource.aiModelPolicy.provided ext r) (updateAiModelPolicy ext r tenantParam idParam) := by
  apply updateInTenant_patches htenant hid
  intro existing
  apply BuildsPatch.attempt
  · apply Returns.attempt_bind_ok
    -- the row keeps its id and tenant and takes the members provided
    intro req hdecode now row
    refine ⟨rfl, rfl, fun c => ?_⟩
    simp only [Resource.provided, providedBy_of_ok hdecode]
    cases c <;>
      simp [Table.value, AiModelPolicy.value, CreateAiModelPolicyRequest.provided, Option.map_or]
  · apply Raises.attempt_bind decodeBody_failed
    intro req
    trivial

/-- The patch of a rate limit. -/
private theorem updateRateLimitPolicy_patches (htenant : ext.uuidParse tenantParam = some tenantId)
    (hid : ext.uuidParse idParam = some id) :
    Patches .rateLimitPolicies (rowIn .rateLimitPolicies id tenantId)
      (Resource.rateLimitPolicy.provided ext r)
      (updateRateLimitPolicy ext r tenantParam idParam) := by
  apply updateInTenant_patches htenant hid
  intro existing
  apply BuildsPatch.attempt
  · apply Returns.attempt_bind_ok
    -- both limits have to be positive
    intro req hdecode
    apply Returns.attempt_bind
    intro _
    apply Returns.attempt_bind
    intro _ now row
    refine ⟨rfl, rfl, fun c => ?_⟩
    simp only [Resource.provided, providedBy_of_ok hdecode]
    cases c <;>
      simp [Table.value, RateLimitPolicy.value, RateLimitPolicyRequest.provided, Option.map_or]
  · -- the two limits may be refused
    apply Raises.attempt_bind decodeBody_failed
    intro req
    apply Raises.attempt_bind (require_failed (writeError_failed (by decide) _))
    intro _
    apply Raises.attempt_bind (require_failed (writeError_failed (by decide) _))
    intro _
    trivial

/-- Every PATCH request reads the row, merges what it provides, and writes the row back. -/
theorem Resource.handle_patches (res : Resource) (mode : OidcMode) {call : PatchCall}
    (htargets : res.Targets ext id tenantId call) :
    Patches res.table (res.target id tenantId) (res.provided ext call.request)
      (handle ext mode (res.endpoint call) call.request) := by
  unfold handle
  -- a request that is not let in fails
  cases hpass : middlewares mode call.request (res.endpoint call) with
  | error response => exact .failed response (middlewares_failed response hpass)
  | ok _ =>
    rw [attempt_ok_bind]
    obtain ⟨hid, htenant⟩ := htargets
    cases res with
    | tenant => exact updateTenant_patches hid
    | upstream => exact updateUpstream_patches (htenant (by decide)) hid
    | route => exact updateRoute_patches (htenant (by decide)) hid
    | aiProvider => exact updateAiProvider_patches (htenant (by decide)) hid
    | aiModelPolicy => exact updateAiModelPolicy_patches (htenant (by decide)) hid
    | rateLimitPolicy => exact updateRateLimitPolicy_patches (htenant (by decide)) hid

end Resources

end Barqium.Native.ControlApi
