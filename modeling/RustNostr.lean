import RustNostr.NostrLmdb.StoreInvariants
import RustNostr.Library.BoundedScan
import RustNostr.NostrLmdb.RangeScan
import RustNostr.NostrLmdb.QueryPlan
import RustNostr.NostrLmdb.QueryResult
import RustNostr.NostrLmdb.Replaceable
import RustNostr.NostrLmdb.QueryRuns
import RustNostr.Nostr.EventJson
import RustNostr.Library.Run
import RustNostr.NostrSdk.Shared
import RustNostr.NostrSdk.Relay.Acquisition
import RustNostr.NostrSdk.Relay.Subscription
import RustNostr.NostrSdk.Relay.HandleEvent
import RustNostr.NostrSdk.Relay.Verification
import RustNostr.NostrSdk.LocalRelay.Handle
import RustNostr.NostrSdk.LocalRelay.GiftWraps
import RustNostr.NostrSdk.Relay.AcquireRelay
import RustNostr.NostrLmdb.Saving
import RustNostr.NostrLmdb.Observation
import RustNostr.NostrLmdb.Coordinates
import RustNostr.NostrLmdb.Convergence
import RustNostr.NostrLmdb.Deletions
import RustNostr.NostrLmdb.Commits
import RustNostr.NostrLmdb.ArrivalOrder
import RustNostr.NostrLmdb.CoordinateTimes
import RustNostr.NostrLmdb.Vanish
import RustNostr.NostrLmdb.Ingester
import RustNostr.NostrSdk.Relay.Connection
import RustNostr.NostrSdk.Relay.ConnectionTask
import RustNostr.NostrSdk.Relay.BackgroundRequests
import RustNostr.Library.CappedSet
import RustNostr.Library.NestedTable
import RustNostr.NostrMemory.Store
import RustNostr.NostrMemory.Coherence
import RustNostr.NostrMemory.Indexing
import RustNostr.NostrMemory.Runs
import RustNostr.NostrMemory.Queries
import RustNostr.NostrMemory.Capacity
import RustNostr.NostrMemory.Rejections
import RustNostr.NostrMemory.Deletions
import RustNostr.Library.RowOrder
import RustNostr.NostrSqlite.Store
import RustNostr.NostrSqlite.Queries
import RustNostr.NostrSqlite.Tombstones
import RustNostr.NostrSqlite.Wipe
import RustNostr.NostrLmdb.FilterAgreement
import RustNostr.Nostr.FilterJson
import RustNostr.Nostr.CoordinateText
import RustNostr.Library.Tlv
import RustNostr.Library.Utf8
import RustNostr.Nostr.RelayUrl
import RustNostr.Library.Grouping
import RustNostr.Library.TextSlice
import RustNostr.Nostr.Nip19
import RustNostr.Nostr.Nip19RoundTrip
import RustNostr.Nostr.Nip44
import RustNostr.Nostr.Nip44RoundTrip
import RustNostr.Nostr.Parser
import RustNostr.Nostr.ParserLossless
import RustNostr.NostrGossip.Interface
import RustNostr.NostrSdk.Gossip.BreakDown
import RustNostr.NostrSdk.Gossip.SubFilters
import RustNostr.Library.KeyedLists
import RustNostr.Nostr.RelayList
import RustNostr.NostrGossip.Agreement
import RustNostr.Library.FifoLock
import RustNostr.NostrSdk.Gossip.Semaphore
import RustNostr.NostrSdk.Gossip.SemaphoreCleanup
import RustNostr.Library.TableTotals
import RustNostr.NostrSdk.LocalRelay.Accounting
import RustNostr.NostrSdk.LocalRelay.Authentication
import RustNostr.NostrSdk.LocalRelay.Closing
import RustNostr.NostrSdk.LocalRelay.LiveDelivery
import RustNostr.NostrSdk.Pool.RelayPool
import RustNostr.NostrSdk.Pool.Shutdown
import RustNostr.Library.FormUrlencoded
import RustNostr.Nostr.ExternalContent
import RustNostr.Nostr.NostrConnect
import RustNostr.NostrSdk.Relay.Sync
import RustNostr.NostrSdk.Relay.SyncAccounting
import RustNostr.Library.UrlQuery
import RustNostr.Nostr.NostrConnectUri
import RustNostr.Nostr.WalletConnectUri
import RustNostr.NostrGossip.RelayLimit
import RustNostr.Library.FirstMatch
import RustNostr.NostrBrowserSignerProxy.Registry
import RustNostr.NostrConnect.Client
import RustNostr.NostrConnect.Listening
import RustNostr.NostrConnect.RemoteSigning
import RustNostr.Nostr.RelayUrlText
import RustNostr.Nwc.WalletResponses
import RustNostr.Library.Fallible
import RustNostr.Nostr.GiftWrap
import RustNostr.NostrSdk.Gossip.Checks
import RustNostr.Nostr.LiveEvent
import RustNostr.Nostr.LiveEventRoundTrip
import RustNostr.Nostr.Comment
import RustNostr.Nostr.CommentThreading
import RustNostr.NostrGossip.ListArrival
import RustNostr.NostrLmdb.Counting
import RustNostr.NostrLmdb.KeySizes
import RustNostr.NostrSqlite.Counting
import RustNostr.Library.Checked
import RustNostr.Library.OnceDelivery
import RustNostr.Library.SeqReader
import RustNostr.Nostr.MessageJson
import RustNostr.Nostr.MessageRoundTrip
import RustNostr.Nostr.Nip44Checked
import RustNostr.Nostr.Nip60
import RustNostr.Nostr.Nip60RoundTrip
import RustNostr.Nostr.ParserText
import RustNostr.NostrSdk.Pool.StreamDraining
import RustNostr.Library.CyclicWindow
import RustNostr.Library.TokenBucket
import RustNostr.NostrSdk.Gossip.Refresher
import RustNostr.NostrSdk.LocalRelay.RateLimit
import RustNostr.NostrSdk.Relay.Unsubscribe
import RustNostr.Library.DigitString
import RustNostr.Nostr.MessageContext
import RustNostr.Nostr.ProofOfWork
import RustNostr.NostrGossip.RelaySelection
import RustNostr.Nwc.Notifications
import RustNostr.Library.FirstWins
import RustNostr.Nostr.FileMetadata
import RustNostr.Library.Dedup
import RustNostr.Library.UrlPath
import RustNostr.Nostr.GitTag
import RustNostr.NostrBlossom.CandidateUrls
import RustNostr.Library.Alignment
import RustNostr.Nostr.Nip44Padding
import RustNostr.Nostr.ProfileBadges
import RustNostr.Nostr.RelayDiscovery
import RustNostr.Library.WebUrl
import RustNostr.Nostr.Nip05
import RustNostr.Nostr.MiningResults
import RustNostr.Nostr.BlockingPow
import RustNostr.NostrSdk.Relay.SendingRuns
import RustNostr.NostrSdk.Relay.Acknowledgements
import RustNostr.Library.Interaction
import RustNostr.NostrSdk.Client.Routing
import RustNostr.NostrBlossom.Client
import RustNostr.NostrBlossom.Downloads
import RustNostr.NostrBlossom.Exchanges
import RustNostr.NostrBlossom.Uploads
