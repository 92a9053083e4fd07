import Ironsight.Tables
import Ironsight.Runs
import Ironsight.Uuid
import Ironsight.Access
import Ironsight.Codes
import Ironsight.Soc
import Ironsight.FourEyes
import Ironsight.FourEyesProofs
import Ironsight.CameraAssignment
import Ironsight.ProfileUpdate
import Ironsight.Notifications
import Ironsight.EventReads
import Ironsight.EventReadsProofs
import Ironsight.ShareLinks
import Ironsight.ShareLinksProofs
import Ironsight.Analytics
import Ironsight.AnalyticsProofs
import Ironsight.ComplianceZones
import Ironsight.AlarmDelivery
import Ironsight.IncidentBookkeeping
import Ironsight.IncidentCorrelation
import Ironsight.SlaReport
import Ironsight.Tokens
import Ironsight.TokensProofs
import Ironsight.Calendar
import Ironsight.JsonReader
import Ironsight.JsonReaderProofs
import Ironsight.Json
import Ironsight.Base64
import Ironsight.Manifests
import Ironsight.ManifestsProofs
import Ironsight.Paging
import Ironsight.Reanalysis
import Ironsight.ReanalysisProofs
import Ironsight.Stretches
import Ironsight.TrackEvents
import Ironsight.TrackEventsProofs
import Ironsight.SegmentNames
import Ironsight.SegmentWatch
import Ironsight.SegmentWatchProofs
import Ironsight.ClipWriter
import Ironsight.RingSafety
import Ironsight.ClipCoverage
import Ironsight.RecoveryCodes
import Ironsight.Credentials
import Ironsight.LikePatterns
import Ironsight.Paths
import Ironsight.Retention
import Ironsight.PruneLoops
import Ironsight.StorageCaps
import Ironsight.PruneScope
import Ironsight.SafetyValve
import Ironsight.RemovedMedia
import Ironsight.RecordingEngine
import Ironsight.PpeWorker
import Ironsight.NoGoAlarms
import Ironsight.ManifestEvidence
import Ironsight.Rfc3339
import Ironsight.OfflineVerify
import Ironsight.JsonWritten
import Ironsight.OfflineVerifyProofs
import Ironsight.ReanalysisVisits
import Ironsight.ReanalysisStatus
import Ironsight.Websocket
import Ironsight.WebsocketFanout
import Ironsight.WebsocketRevocation
import Ironsight.Tracking
import Ironsight.TrackingBackfill
import Ironsight.TrackingCounts
import Ironsight.ReviewQueue
import Ironsight.VlmWorker
import Ironsight.VlmRetries
import Ironsight.PpeEvidence
import Ironsight.OperatorDisplay
import Ironsight.OperatorEngagement
import Ironsight.IncidentAggregation
import Ironsight.Dispositions
import Ironsight.DispositionsProofs
import Ironsight.AccessAgreement
import Ironsight.DotSegments
import Ironsight.LiveProxy
import Ironsight.FormBody
import Ironsight.PullLoop
import Ironsight.VcaPush
import Ironsight.KeyedMatch
import Ironsight.VcaPull
import Ironsight.Binary64
import Ironsight.VcaCoordinates
import Ironsight.VcaRoundTrip
import Ironsight.LoginLockout
import Ironsight.SsoBinding
import Ironsight.StatusReconciler
import Ironsight.DeviceHistory
import Ironsight.ExportTenancy
import Ironsight.ExportWorkers
import Ironsight.WeeklyDigest
import Ironsight.DigestSends
import Ironsight.EventLinks
import Ironsight.SegmentWriter
import Ironsight.Indexer
import Ironsight.LabelQueue
import Ironsight.MediaAudit
import Ironsight.SqlText
import Ironsight.StreamPaths
import Ironsight.CleanPaths
import Ironsight.MediaLinks
import Ironsight.EventQuery
import Ironsight.ScheduleWindows
import Ironsight.RecordLoop
import Ironsight.LeaderElection
import Ironsight.RetentionFailures
import Ironsight.ConvexPolygons
import Ironsight.PolygonTest
import Ironsight.HvccPatch
import Ironsight.LineScanner
import Ironsight.SignedPlaylists
import Ironsight.LivePlaylists
import Ironsight.ClipFinder
import Ironsight.Durations
import Ironsight.FinderAgreement
import Ironsight.RuleSets
import Ironsight.Timestamps
import Ironsight.Coverage
import Ironsight.SpanMerge
import Ironsight.RateLimits
import Ironsight.JsonNesting
import Ironsight.EmbeddedVerdicts
import Ironsight.EventMessages
import Ironsight.RenewalSnapshots
import Ironsight.RankedRows
import Ironsight.AnalyticsBoxes
import Ironsight.EventSearch
import Ironsight.ScopedIncidents
import Ironsight.DetectionList
import Ironsight.FrameSearch
import Ironsight.FrameSearchProofs
import Ironsight.TimelineBuckets
import Ironsight.JsonSpans
import Ironsight.LabelExport
import Ironsight.CameraCookies
import Ironsight.Insertions
import Ironsight.LeftmostMatches
import Ironsight.LinkRewriting
import Ironsight.LinkRewritingProofs
import Ironsight.NetUrl
import Ironsight.NetUrlProofs
import Ironsight.StreamCandidates
import Ironsight.BinaryTracks
import Ironsight.Comparators
import Ironsight.GridModes
import Ironsight.MsePlayer
import Ironsight.CameraWall
import Ironsight.PartedLists
import Ironsight.BitStrings
import Ironsight.BitReader
import Ironsight.EmulationPrevention
import Ironsight.Sps
import Ironsight.DtsExtractor
import Ironsight.ReaderSafety
import Ironsight.DtsInvariants
import Ironsight.DtsTiming
import Ironsight.Transcoding
