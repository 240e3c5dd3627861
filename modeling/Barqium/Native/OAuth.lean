import Barqium.Native.Config
import Barqium.Native.McpClient

/-!
# OAuth tokens of MCP servers

Model of `crates/barqium-mcp/src/oauth.rs`. Calls of `token` run concurrently: a call looks for a
cached token under the read lock, asks the token endpoint without a lock, and stores the answer
under the write lock.
-/

namespace Barqium.Native.OAuth

/-! ## The clock -/

/-- A point of the monotonic clock on Unix. -/
structure Instant where
  tvSec : Int64
  tvNsec : Fin 1000000000
  deriving Repr, DecidableEq

namespace Instant

def nanos (t : Instant) : Int := t.tvSec.toInt * 1000000000 + t.tvNsec

/-- `<`, seconds first. -/
def before (t u : Instant) : Bool :=
  t.tvSec < u.tvSec || (t.tvSec = u.tvSec && t.tvNsec < u.tvNsec)

/-- `checked_add` of a whole number of seconds. -/
def checkedAdd (t : Instant) (secs : UInt64) : Option Instant :=
  if t.tvSec.toInt + secs.toNat < 2 ^ 63 then
    some { t with tvSec := Int64.ofInt (t.tvSec.toInt + secs.toNat) }
  else none

/-- `checked_sub` of a whole number of seconds. -/
def checkedSub (t : Instant) (secs : UInt64) : Option Instant :=
  if -2 ^ 63 ≤ t.tvSec.toInt - secs.toNat then
    some { t with tvSec := Int64.ofInt (t.tvSec.toInt - secs.toNat) }
  else none

end Instant

/-- What `Instant::now` gives: the clock counts from the start of the machine. -/
def Now : Type := { t : Instant // 0 ≤ t.tvSec.toInt }

/-! ## Configuration and cached tokens -/

inductive OAuthFlow where
  | clientCredentials
  | pkce
  deriving Repr, DecidableEq

/-- OAuth2 configuration for a single MCP server. -/
structure OAuthConfig where
  /-- Token endpoint URL. -/
  tokenUrl : String
  clientId : String
  clientSecret : String
  /-- Requested OAuth scopes. -/
  scopes : List String
  /-- Flow to use. -/
  flow : OAuthFlow
  deriving Repr, DecidableEq

structure CachedToken where
  accessToken : String
  expiresAt : Instant
  deriving Repr, DecidableEq

/-- Treats tokens as expired 30 s early; an expiry that has no point of the clock 30 s before
    it counts as it is. -/
def CachedToken.isValid (t : CachedToken) (now : Instant) : Bool :=
  now.before ((t.expiresAt.checkedSub 30).getD t.expiresAt)

/-! ## The token endpoint -/

/-- A form that is posted to a URL. -/
structure TokenRequest where
  url : String
  params : List (String × String)
  deriving Repr, DecidableEq

structure TokenResponse where
  accessToken : String
  expiresIn : Option UInt64
  deriving Repr, DecidableEq

/-- A response of the endpoint: its status, and its body read as text or as JSON. A transport
    error is given by its text. -/
structure HttpResponse where
  status : UInt16
  text : Except String String
  json : Except String TokenResponse

/-- The lifetime of a token in seconds. -/
def TokenResponse.ttl (tr : TokenResponse) : UInt64 := tr.expiresIn.getD 3600

/-- The form of a client credentials request. -/
def tokenRequest (cfg : OAuthConfig) : TokenRequest :=
  let params := [("grant_type", "client_credentials"), ("client_id", cfg.clientId),
    ("client_secret", cfg.clientSecret)]
  let scope := " ".intercalate cfg.scopes
  { url := cfg.tokenUrl, params := if scope.isEmpty then params else params ++ [("scope", scope)] }

/-- What the endpoint granted. -/
def granted : Except String HttpResponse → Except McpError TokenResponse
  | .error text => .error (.transport text)
  | .ok resp =>
    if !McpClient.isSuccess resp.status then
      .error (.rpc (Int32.ofNat resp.status.toNat)
        ("OAuth token request failed: " ++ resp.text.toOption.getD ""))
    else resp.json.mapError .transport

/-- `client_credentials` from the answer on. There is no result if the addition to the clock
    panics. -/
def clientCredentials (answer : Except String HttpResponse) (now : Instant) :
    Option (Except McpError CachedToken) :=
  match granted answer with
  | .error e => some (.error e)
  | .ok tr => (now.checkedAdd tr.ttl).map fun expiresAt => .ok ⟨tr.accessToken, expiresAt⟩

/-! ## Concurrent calls -/

/-- Where a call of `token` stands. -/
inductive Phase where
  /-- Before the read lock. -/
  | check
  | fetch (request : TokenRequest)
  /-- Before the write lock. -/
  | store (newToken : CachedToken)
  /-- Returned from the cache, where it was found at this time. -/
  | cached (now : Now) (t : CachedToken)
  | refreshed (t : CachedToken)
  | failed (e : McpError)
  | panicked

/-- What a call gives its caller, once it has returned. -/
def Phase.result : Phase → Option (Except McpError String)
  | .cached _ t => some (.ok t.accessToken)
  | .refreshed t => some (.ok t.accessToken)
  | .failed e => some (.error e)
  | .check => none
  | .fetch _ => none
  | .store _ => none
  | .panicked => none

structure Call where
  serverName : String
  cfg : OAuthConfig
  phase : Phase

/-- The store, and the calls that were made so far. -/
structure World where
  tokens : HashMap CachedToken
  calls : List Call

/-- The fast path of `token`, under the read lock. -/
def check (tokens : HashMap CachedToken) (serverName : String) (cfg : OAuthConfig) (now : Now) :
    Phase :=
  let slow : Phase := match cfg.flow with
    | .clientCredentials => .fetch (tokenRequest cfg)
    -- falls back to client credentials for machine-to-machine flows
    | .pkce => .fetch (tokenRequest cfg)
  match tokens.lookup serverName with
  | some t => if t.isValid now.val then .cached now t else slow
  | none => slow

/-- The next step of a call, with the clock at `now`, and with the endpoint's answer if the call
    waits for it. -/
def advance (tokens : HashMap CachedToken) (call : Call) (now : Now)
    (answer : Except String HttpResponse) : HashMap CachedToken × Phase :=
  match call.phase with
  | .check => (tokens, check tokens call.serverName call.cfg now)
  | .fetch _ =>
    -- the cache is not locked during the request
    match clientCredentials answer now.val with
    | none => (tokens, .panicked)
    | some (.error e) => (tokens, .failed e)
    | some (.ok newToken) => (tokens, .store newToken)
  | .store newToken => (tokens.insert call.serverName newToken, .refreshed newToken)
  | phase => (tokens, phase)

inductive Action where
  | token (serverName : String) (cfg : OAuthConfig)
  /-- The next step of the call with this number. -/
  | step (i : Nat) (now : Now) (answer : Except String HttpResponse)

namespace World

/-- `TokenStore::new`. -/
def new : World := ⟨∅, []⟩

def step (w : World) : Action → World
  | .token serverName cfg => { w with calls := w.calls ++ [⟨serverName, cfg, .check⟩] }
  | .step i now answer =>
    match w.calls[i]? with
    | none => w
    | some call =>
      let next := advance w.tokens call now answer
      ⟨next.1, w.calls.set i { call with phase := next.2 }⟩

/-- The world after these actions, in any interleaving of calls. -/
def run (actions : List Action) : World := actions.foldl step new

end World

end Barqium.Native.OAuth
