import Barqium.Spec.CircuitBreakerCorrect
import Barqium.Spec.RedisRateLimitCorrect
import Barqium.Spec.RouteMatchCorrect
import Barqium.Spec.SnapshotConsumerCorrect
import Barqium.Spec.McpServerCorrect
import Barqium.Spec.TenantIsolationCorrect
import Barqium.Spec.OutboxCorrect
import Barqium.Spec.OutboxWorkerCorrect
import Barqium.Spec.AuditConsumerCorrect
import Barqium.ForStd.Utf8
import Barqium.ForStd.Walk
import Barqium.Native.WasmPlugin
import Barqium.Spec.WasmPluginCorrect
import Barqium.ForStd.Replace
import Barqium.ForStd.Spans
import Barqium.ForStd.Text
import Barqium.Native.Pii
import Barqium.Spec.PiiCorrect
import Barqium.ForStd.LineStream
import Barqium.Native.ChatStream
import Barqium.Native.McpClient
import Barqium.Spec.StreamingCorrect
import Barqium.Spec.RateLimitCorrect
import Barqium.Spec.SnapshotWritesCorrect
import Barqium.Spec.ProxyServiceCorrect
import Barqium.Spec.ProtocolsCorrect
import Barqium.Spec.AdminClientCorrect
import Barqium.Spec.StdioClientCorrect
import Barqium.ForStd.Pool
import Barqium.Native.ControlApi.Concurrent
import Barqium.Spec.ConcurrentCorrect
import Barqium.Spec.RegionsCorrect
import Barqium.Spec.RouteTenancyCorrect
import Barqium.Spec.PolicyTenancyCorrect
import Barqium.ForStd.ReadMergeWrite
import Barqium.Spec.PatchFields
import Barqium.Spec.PatchCorrect
import Barqium.Spec.BreakerHistoryCorrect
import Barqium.Spec.RedisMembersCorrect
import Barqium.Spec.RetryAfterCorrect
import Barqium.Spec.ToolRegistryCorrect
import Barqium.Spec.PiiSlicesCorrect
import Barqium.ForStd.EventStream
import Barqium.Spec.McpClientCorrect
import Barqium.ForStd.IpText
import Barqium.Spec.UpstreamUrlCorrect
import Barqium.ForStd.List
import Barqium.ForStd.Xml
import Barqium.ForStd.MediaType
import Barqium.ForStd.GraphQlText
import Barqium.ForStd.Base64
import Barqium.Native.ControlApi.Responses
import Barqium.Spec.SoapFaultCorrect
import Barqium.Spec.SoapBodyCorrect
import Barqium.Spec.SoapActionCorrect
import Barqium.Spec.GraphQlCorrect
import Barqium.Spec.RolesCorrect
import Barqium.Spec.ChecksCorrect
import Barqium.Spec.PluginDigestCorrect
import Barqium.Spec.PluginConfigCorrect
import Barqium.Spec.PatchPresenceCorrect
import Barqium.ForStd.Except
import Barqium.ForStd.FieldList
import Barqium.ForStd.UriText
import Barqium.Native.WebSocket
import Barqium.Native.UpstreamUri
import Barqium.Native.AiProvider
import Barqium.Native.FallbackChain
import Barqium.Native.Providers
import Barqium.Native.SemanticCache
import Barqium.Spec.HopByHopCorrect
import Barqium.Spec.UpstreamUriCorrect
import Barqium.Spec.WebSocketCorrect
import Barqium.Spec.FallbackCorrect
import Barqium.Spec.ConversationCorrect
import Barqium.Spec.ProvidersCorrect
import Barqium.Spec.AnthropicStreamCorrect
import Barqium.Spec.SemanticCacheCorrect
import Barqium.Spec.SemanticIndexCorrect
import Barqium.ForStd.Digits
import Barqium.Native.CodeModeGate
import Barqium.Native.OAuth
import Barqium.Native.Budget
import Barqium.Native.PluginVersion
import Barqium.Native.PluginChain
import Barqium.Spec.CodeModeGateCorrect
import Barqium.Spec.SnapshotEntriesCorrect
import Barqium.Spec.OAuthCorrect
import Barqium.Spec.BudgetCorrect
import Barqium.Spec.PluginVersionCorrect
import Barqium.Spec.PluginChainCorrect
import Barqium.Spec.PaginationCorrect
import Barqium.ForStd.Bits
import Barqium.ForStd.Sha256
import Barqium.Native.SigV4
import Barqium.Spec.Sha256Correct
import Barqium.ForStd.Gregorian
import Barqium.Spec.DateCorrect
import Barqium.ForStd.Projection
import Barqium.Spec.IntegrityCorrect
import Barqium.Spec.TenantViewCorrect
import Barqium.Spec.TenantHandlersCorrect
import Barqium.Spec.NoninterferenceCorrect
import Barqium.Spec.DrainedOutboxCorrect
import Barqium.Spec.ForwardingCorrect
import Barqium.Native.PluginWatcher
import Barqium.Spec.PluginWatcherCorrect
import Barqium.Spec.AnswersCorrect
import Barqium.Spec.ReadYourWritesCorrect
import Barqium.Native.ListPages
import Barqium.Spec.ListPagesCorrect
import Barqium.ForStd.Csv
import Barqium.Spec.LogExportCorrect
import Barqium.Native.McpSession
import Barqium.Spec.McpSessionCorrect
import Barqium.Native.AdminForms
import Barqium.Spec.AdminFormsCorrect
