import AkesoDlp.Lib.TSys
import AkesoDlp.Lib.Lists
import AkesoDlp.Lib.LittleEndian
import AkesoDlp.Lib.Layout
import AkesoDlp.Lib.Keyed
import AkesoDlp.Lib.LongestSuffix
import AkesoDlp.Lib.Act
import AkesoDlp.Lib.UnitOfWork
import AkesoDlp.Lib.Sweep
import AkesoDlp.Lib.Shortening
import AkesoDlp.Lib.Utf8
import AkesoDlp.Lib.Base64
import AkesoDlp.Lib.PercentEncoding
import AkesoDlp.Lib.HtmlEntities
import AkesoDlp.Lib.TokenBucket
import AkesoDlp.Lib.Json
import AkesoDlp.Lib.JsonWeight
import AkesoDlp.Lib.JsonText
import AkesoDlp.Lib.LockOrder
import AkesoDlp.Lib.CallHistory
import AkesoDlp.Lib.Accounts
import AkesoDlp.Lib.Paging
import AkesoDlp.Lib.Matching
import AkesoDlp.Lib.Trim
import AkesoDlp.Lib.Raises
import AkesoDlp.Lib.Reordered
import AkesoDlp.Lib.Runs
import AkesoDlp.Lib.LowerCase
import AkesoDlp.Lib.Tiers
import AkesoDlp.Lib.Utf16
import AkesoDlp.Lib.CheckDigit
import AkesoDlp.Agent.StdString
import AkesoDlp.Agent.Policy
import AkesoDlp.Agent.PolicyEvaluator
import AkesoDlp.Agent.Evidence
import AkesoDlp.Agent.IncidentQueue
import AkesoDlp.Agent.IncidentLedger
import AkesoDlp.Agent.KeywordAnalyzer
import AkesoDlp.Agent.KeywordTrie
import AkesoDlp.Agent.KeywordLinks
import AkesoDlp.Agent.KeywordScan
import AkesoDlp.Agent.KeywordExact
import AkesoDlp.Agent.FileTypeDetector
import AkesoDlp.Agent.HsRegexAnalyzer
import AkesoDlp.Agent.Pipeline
import AkesoDlp.Agent.KeywordCoverage
import AkesoDlp.Agent.Verdict
import AkesoDlp.Agent.PolicyHistory
import AkesoDlp.Agent.ConcurrentUpdates
import AkesoDlp.Server.PolicyEvents
import AkesoDlp.Server.PolicyTable
import AkesoDlp.Server.PolicyStream
import AkesoDlp.Server.PolicyConvergence
import AkesoDlp.Server.PolicyBridge
import AkesoDlp.Server.BridgeVersions
import AkesoDlp.Server.PolicyDelivery
import AkesoDlp.Server.CommandQueue
import AkesoDlp.Server.Discover
import AkesoDlp.Server.Auth
import AkesoDlp.Server.SessionRotation
import AkesoDlp.Agent.RemoteScan
import AkesoDlp.Agent.ContainerCoverage
import AkesoDlp.Agent.ZipSafety
import AkesoDlp.Agent.ZipFormat
import AkesoDlp.Agent.ZipListing
import AkesoDlp.Agent.ContainerTree
import AkesoDlp.Agent.ContentExtractor
import AkesoDlp.Agent.TextEncodings
import AkesoDlp.Agent.MemberInflation
import AkesoDlp.Agent.DiscoverScanner
import AkesoDlp.Agent.IncrementalDiscover
import AkesoDlp.Agent.RemoteScanRuns
import AkesoDlp.Agent.RemoteScanCoverage
import AkesoDlp.RemoteScan
import AkesoDlp.Agent.StdInt
import AkesoDlp.Agent.StdPath
import AkesoDlp.Agent.IncidentHash
import AkesoDlp.Agent.EnqueueFailures
import AkesoDlp.Agent.RegexContainment
import AkesoDlp.Agent.RegexEvidence
import AkesoDlp.Agent.RegexFile
import AkesoDlp.Agent.MatchedContent
import AkesoDlp.Agent.PipelineLocks
import AkesoDlp.Agent.PipelineCounters
import AkesoDlp.Agent.TwoTierFallback
import AkesoDlp.Agent.BinaryStrings
import AkesoDlp.Lib.Loop
import AkesoDlp.Agent.DriverFilter
import AkesoDlp.Agent.GrpcClient
import AkesoDlp.Agent.ReconnectBackoff
import AkesoDlp.Agent.ServiceState
import AkesoDlp.Agent.ClipboardDetection
import AkesoDlp.Agent.Validators
import AkesoDlp.Agent.ComponentRestart
import AkesoDlp.Agent.QuarantineAction
import AkesoDlp.Server.RateLimiter
import AkesoDlp.Server.LoginThrottle
import AkesoDlp.Server.BucketReclaim
import AkesoDlp.Server.DiscoverScans
import AkesoDlp.Server.DiscoverLifecycle
import AkesoDlp.Server.PolicyEdits
import AkesoDlp.Server.IncidentArchive
import AkesoDlp.Server.FingerprintIndex
import AkesoDlp.Agent.PolicyCache
import AkesoDlp.Server.DetectionModels
import AkesoDlp.Server.PolicyEvaluator
import AkesoDlp.Server.PolicyOrder
import AkesoDlp.Server.KeywordAnalyzer
import AkesoDlp.Server.KeywordOffsets
import AkesoDlp.Server.KeywordProximity
import AkesoDlp.PolicyExceptions
import AkesoDlp.Parity
import AkesoDlp.Server.Validators
import AkesoDlp.Parity.Checksums
import AkesoDlp.Parity.ErrorDetection
import AkesoDlp.Parity.Formats
import AkesoDlp.Parity.Fields
import AkesoDlp.Parity.Validators
import AkesoDlp.Network.EmailMessage
import AkesoDlp.Network.ContentNormalizer
import AkesoDlp.Network.EncodingLayers
import AkesoDlp.Network.SmtpMonitor
import AkesoDlp.Network.DlpAddon
import AkesoDlp.Network.SmtpCoverage
import AkesoDlp.Network.HttpMonitor
import AkesoDlp.Network.SmtpPrevent
import AkesoDlp.Network.EnforcementLog
import AkesoDlp.Network.Smtplib
import AkesoDlp.Network.SmtpEntry
import AkesoDlp.Network.SmtpDelivery
import AkesoDlp.Server.DeadLetterQueue
import AkesoDlp.Server.PyPath
import AkesoDlp.Server.IncidentService
import AkesoDlp.Server.IncidentAudit
import AkesoDlp.Server.IncidentReplay
import AkesoDlp.Server.EmlExtraction
import AkesoDlp.Server.EmlMessage
import AkesoDlp.Server.FileInspector
import AkesoDlp.Server.ArchiveInspector
import AkesoDlp.Server.ArchiveRun
import AkesoDlp.Server.ArchiveLimits
import AkesoDlp.Server.ArchiveTree
import AkesoDlp.Server.ArchiveIsolation
import AkesoDlp.Server.ArchiveTransparency
import AkesoDlp.Server.DetectionEngine
import AkesoDlp.Network.EncodedFragments
import AkesoDlp.Network.DecodedVariants
import AkesoDlp.Network.NormalForm
import AkesoDlp.Lib.Squeeze
import AkesoDlp.Server.Simhash
import AkesoDlp.Lib.JsonLayout
import AkesoDlp.Server.FingerprintFile
import AkesoDlp.Server.FingerprintSearch
import AkesoDlp.Server.UnicodeValidators
import AkesoDlp.Server.ValidatorErrors
import AkesoDlp.Server.AsciiValidators
import AkesoDlp.Server.DataIdentifierAnalyzer
import AkesoDlp.Agent.DosPath
import AkesoDlp.Lib.Components
import AkesoDlp.Agent.PathExclusion
import AkesoDlp.Lib.Escaping
import AkesoDlp.Lib.Framing
import AkesoDlp.Server.ReportGenerator
import AkesoDlp.Server.SyslogExporter
import AkesoDlp.Lib.Tiles
import AkesoDlp.Server.DbMaintenance
import AkesoDlp.Lib.Cooldown
import AkesoDlp.Agent.UploadCooldown
import AkesoDlp.Agent.UploadPath
import AkesoDlp.Lib.Probe
import AkesoDlp.Agent.BlockAction
import AkesoDlp.Agent.DriverMessage
import AkesoDlp.Agent.DriverPort
import AkesoDlp.Agent.DriverVerdict
import AkesoDlp.Server.SyslogConnection
import AkesoDlp.Server.ReportExporter
import AkesoDlp.Agent.UninstallPassword
import AkesoDlp.Server.TokenProvenance
import AkesoDlp.Console.Calls
import AkesoDlp.Console.Sessions
import AkesoDlp.Console.SignedIn
import AkesoDlp.Agent.FileTypeOrder
import AkesoDlp.Server.AgentIdentity
import AkesoDlp.Server.AgentRows
