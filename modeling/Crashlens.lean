import Crashlens.Library.Transition
import Crashlens.Library.Program
import Crashlens.Library.ReadCommitted
import Crashlens.PyValue
import Crashlens.Ingest
import Crashlens.Sourcemaps
import Crashlens.Normalize
import Crashlens.Database
import Crashlens.Transactions
import Crashlens.TransactionSpec
import Crashlens.LockDiscipline
import Crashlens.Counters
import Crashlens.IssueStatus
import Crashlens.RegressionAlerts
import Crashlens.StaleRegression
import Crashlens.DuplicateBound
import Crashlens.Library.Serial
import Crashlens.Delivery
import Crashlens.Redelivery
import Crashlens.ArrivalOrder
import Crashlens.ReleaseOrder
import Crashlens.Storable
import Crashlens.RootCause
import Crashlens.Acceptance
import Crashlens.Library.Attempts
import Crashlens.Retry
import Crashlens.Library.Metering
import Crashlens.RateLimit
import Crashlens.Lockout
import Crashlens.Library.Outbox
import Crashlens.JsNumber
import Crashlens.NodeTransport
import Crashlens.BrowserTransport
import Crashlens.PythonTransport
import Crashlens.InstanceAdmins
import Crashlens.Invites
import Crashlens.JsonText
import Crashlens.Retention
import Crashlens.Grouping
import Crashlens.PayloadLimits
import Crashlens.StoredDocument
import Crashlens.CauseChain
import Crashlens.NormalizeSpec
import Crashlens.MapBasename
import Crashlens.LibraryFrames
import Crashlens.PartitionSchedule
import Crashlens.ReleaseNames
import Crashlens.SourcemapUpload
import Crashlens.PathConfinement
import Crashlens.Library.OpenFiles
import Crashlens.UploadRace
import Crashlens.Library.RowSecurity
import Crashlens.TenantDatabase
import Crashlens.AuditedServices
import Crashlens.TenantIsolation
import Crashlens.MutatedRows
import Crashlens.AuditTrail
import Crashlens.MessageGroups
import Crashlens.Library.VariableLength
import Crashlens.VlqCodec
import Crashlens.Library.StableSort
import Crashlens.MappingsCodec
import Crashlens.SymbolicatedPositions
import Crashlens.MapIsolation
import Crashlens.DirnameCodec
import Crashlens.MapServer
import Crashlens.UploadBatch
import Crashlens.ReleaseAgreement
import Crashlens.GrantedRoles
import Crashlens.AdminSpellings
import Crashlens.AuditGuard
import Crashlens.Library.SignificantDigits
import Crashlens.MaskedTarget
import Crashlens.Calendar
import Crashlens.Library.Like
import Crashlens.Library.Paging
import Crashlens.RetryAfter
import Crashlens.IssueList
import Crashlens.TitleSearch
import Crashlens.Library.Tally
import Crashlens.Occurrences
import Crashlens.Decompression
import Crashlens.JsText
import Crashlens.StackTrace
import Crashlens.StackHeader
import Crashlens.StackRoundTrip
import Crashlens.BucketExpiry
import Crashlens.Library.Coupling
import Crashlens.TenantViews
import Crashlens.TenantNoninterference
import Crashlens.AlertChannels
import Crashlens.AlertDispatch
import Crashlens.IngestRoute
import Crashlens.InviteViews
import Crashlens.IngestRuns
import Crashlens.IngestAnswer
import Crashlens.EventContract
import Crashlens.Library.Strands
import Crashlens.NodeScopes
import Crashlens.PythonContexts
import Crashlens.PythonGrouping
import Crashlens.Accounts
import Crashlens.ApiRoutes
import Crashlens.ApiRuns
import Crashlens.EventPipeline
import Crashlens.SignupSecrecy
