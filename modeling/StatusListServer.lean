import StatusListServer.BitStream
import StatusListServer.CheckedEval
import StatusListServer.StatusList
import StatusListServer.SlotWriter
import StatusListServer.SlotReader
import StatusListServer.StatusWidth
import StatusListServer.StatusMap
import StatusListServer.StatusRuns
import StatusListServer.StatusOutcomes
import StatusListServer.StatusLayout
import StatusListServer.CorruptLists
import StatusListServer.StatusToken
import StatusListServer.FieldLists
import StatusListServer.Utf8Slices
import StatusListServer.WhileLoop
import StatusListServer.CachedMap
import StatusListServer.Ipv6Text
import StatusListServer.UrlSyntax
import StatusListServer.ConditionalGet
import StatusListServer.RequestHeaders
import StatusListServer.EntityTagLists
import StatusListServer.KeyedTable
import StatusListServer.Interaction
import StatusListServer.RunHistory
import StatusListServer.Service
import StatusListServer.StorePort
import StatusListServer.MemoryStore
import StatusListServer.SqlStore
import StatusListServer.Management
import StatusListServer.CallDiscipline
import StatusListServer.Deployment
import StatusListServer.VersionedRows
import StatusListServer.SnapshotHistory
import StatusListServer.HistoricalResolution
import StatusListServer.CacheFreshness
import StatusListServer.Ownership
import StatusListServer.ListVersions
import StatusListServer.AdapterOutcomes
import StatusListServer.AdapterAgreement
import StatusListServer.RetentionSweep
import StatusListServer.TimeArithmetic
import StatusListServer.ProgramLogic
import StatusListServer.SecretNames
import StatusListServer.CertMaterial
import StatusListServer.CertManager
import StatusListServer.SecretsBackend
import StatusListServer.CertFrames
import StatusListServer.ProvisioningRules
import StatusListServer.SigningPairs
import StatusListServer.SharedBackend
import StatusListServer.RotationEffect
import StatusListServer.SigningKeyRace
import StatusListServer.CertRenewal
import StatusListServer.ChallengeCleanup
import StatusListServer.DnsChallenges
import StatusListServer.ZoneMatching
import StatusListServer.AcmeDns
import StatusListServer.AzureDns
import StatusListServer.GoogleDns
import StatusListServer.ConcurrentWriters
import StatusListServer.Route53Dns
import StatusListServer.VaultToken
import StatusListServer.TokenPhases
import StatusListServer.TokenInvariant
import StatusListServer.TokenRenewal
import StatusListServer.FileRotation
import StatusListServer.DatabaseUrl
import StatusListServer.StorageAdapters
import StatusListServer.StorageLaws
import StatusListServer.DerChains
import StatusListServer.ServedStatuses
import StatusListServer.CloudflareDns
import StatusListServer.ContendedUpdates
import StatusListServer.Aggregation
import StatusListServer.Linearization
import StatusListServer.CloudSecrets
import StatusListServer.SecretRaces
import StatusListServer.RefCounts
import StatusListServer.PoolRotation
import StatusListServer.SingleFlight
import StatusListServer.GuardedCaches
import StatusListServer.CertReload
