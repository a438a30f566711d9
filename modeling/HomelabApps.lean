import HomelabApps.Auth.AuthGuard.Admission
import HomelabApps.Auth.JwtVerifier.Sound
import HomelabApps.Health.HealthRegistry.Evaluation
import HomelabApps.Health.ShutdownHandler
import HomelabApps.HomelabDashboard.ParseDns.Listing
import HomelabApps.HomelabDashboard.ParseDns.Reach
import HomelabApps.HttpProvider.HttpProviderFactory.Replay
import HomelabApps.InteractiveMap.RasterService.Images
import HomelabApps.KnowledgeBase.DocumentHandlers.Areas
import HomelabApps.KnowledgeBase.DocumentWrite.CommitMessage
import HomelabApps.KnowledgeBase.DocumentWrite.Protocol
import HomelabApps.KnowledgeBase.DocumentsGetHandler.Anchors
import HomelabApps.KnowledgeBase.EmbeddingRun.Current
import HomelabApps.KnowledgeBase.EmbeddingRun.Pass
import HomelabApps.KnowledgeBase.Git.ConcurrentFetch
import HomelabApps.KnowledgeBase.GitHubRepositoryService.Identity
import HomelabApps.KnowledgeBase.Indexer.Acceptance
import HomelabApps.KnowledgeBase.Indexer.Interrupted
import HomelabApps.KnowledgeBase.IndexingLoop.Requests
import HomelabApps.KnowledgeBase.IndexingLoop.Shutdown
import HomelabApps.KnowledgeBase.IndexingRun.Merged
import HomelabApps.KnowledgeBase.IndexingRun.Stopped
import HomelabApps.KnowledgeBase.Markdown.Chunker.Anchors
import HomelabApps.KnowledgeBase.Markdown.Chunker.Limits
import HomelabApps.KnowledgeBase.Markdown.Chunker.Splitting
import HomelabApps.KnowledgeBase.Markdown.FenceTracker.CommonMark
import HomelabApps.KnowledgeBase.MetadataFilterService
import HomelabApps.KnowledgeBase.NoteRenderService.ReadsBack
import HomelabApps.KnowledgeBase.NoteRenderService.Slug
import HomelabApps.KnowledgeBase.OnBehalfOf
import HomelabApps.KnowledgeBase.PostgresService
import HomelabApps.KnowledgeBase.PostgresService.Clean
import HomelabApps.KnowledgeBase.RankFusion.Exact
import HomelabApps.KnowledgeBase.SchemaMigrator.FullText
import HomelabApps.KnowledgeBase.SearchService.Confidential
import HomelabApps.KnowledgeBase.SearchService.Coverage
import HomelabApps.KnowledgeBase.Store.MetadataClause
import HomelabApps.KnowledgeBase.Store.Shortcut
import HomelabApps.KnowledgeBase.Store.Upsert
import HomelabApps.KnowledgeBaseMcp.McpEndpointService
import HomelabApps.Library.Bytes
import HomelabApps.Library.DatabaseSession
import HomelabApps.Library.Datagrams
import HomelabApps.Library.Distinct
import HomelabApps.Library.Doubles
import HomelabApps.Library.JsonRoundTrip
import HomelabApps.Library.Jsonb
import HomelabApps.Library.KeyedMap
import HomelabApps.Library.LineReader
import HomelabApps.Library.Lists
import HomelabApps.Library.Numerals
import HomelabApps.Library.Packing
import HomelabApps.Library.Yaml
import HomelabApps.MiotBridge.DeviceState.Convergence
import HomelabApps.MiotBridge.Handlers.Clients
import HomelabApps.MiotBridge.Handlers.Mirror
import HomelabApps.MiotBridge.Handlers.Registration
import HomelabApps.MiotBridge.MqttListenerService.Answers
import HomelabApps.MiotBridge.MqttListenerService.Sent
import HomelabApps.MiotBridge.MqttTopicService
import HomelabApps.MiotBridge.NotificationDispatch.Pacing
import HomelabApps.MiotBridge.PropertyPoller.Memory
import HomelabApps.MiotBridge.PropertyPoller.Schedule
import HomelabApps.MiotBridge.SimplifiedMiotSpecV2Mapper
import HomelabApps.MiotBridge.SimplifiedMiotSpecV2Mapper.Keys
import HomelabApps.MiotDevice.Commands.Network
import HomelabApps.MiotDevice.Commands.Network.Exchanges
import HomelabApps.MiotDevice.Commands.Network.OwnAnswers
import HomelabApps.MiotDevice.Commands.Network.Steps
import HomelabApps.MiotDevice.Commands.Serialised
import HomelabApps.MiotDevice.Commands.StampRefresh
import HomelabApps.MiotDevice.DeviceClock.Runs
import HomelabApps.MiotDevice.MiotTransport.OutgoingPacket
import HomelabApps.MiotDevice.MiotTransport.OutgoingPacket.RoundTrip
import HomelabApps.QrManager.QrCodeService.Allocation
import HomelabApps.Resilience.CircuitBreaker.Trial
import HomelabApps.Resilience.ResiliencePolicy.Cancellation
import HomelabApps.UiAuth.AuthCallback.ReturnPath
import HomelabApps.UiAuth.AuthContext.RedirectLoop
import HomelabApps.UiRuntime.UseApiStatus.Evidence
