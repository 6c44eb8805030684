import Elan.CatalogDecoding
import Elan.EndpointSync
import Elan.Unregister
import Elan.Registry
import Elan.EnforcementAgreement
import Elan.UserCatalog
import Elan.HiddenDatasets
import Elan.IamSemantics
import Elan.RemoteScan
import Elan.PortDerivation
import Elan.LatestQuery
import Elan.CsvDatasets
import Elan.Dispatch
import Elan.PlanRewrite
import Elan.RowFilters
import Elan.Confinement
import Elan.Pushdown
import Elan.PolicyReload
import Elan.PolicyTransfer
import Elan.PolicyRoundTrip
import Elan.AuditDelivery
import Elan.Heartbeat
import Elan.PolicyFailure
import Elan.SubjectCreation
import Elan.ColumnMasks
import Elan.ResourcePatterns
import Elan.CatchUpFilter
import Elan.AuditSequence
import Elan.AuditTimes
import Elan.Uploads
import Elan.QueryResponse
import Elan.GatewayTables
import Elan.RemoteQuery
import Elan.QueryAudit
import Elan.QueryClient
import Elan.PolicyChanges
import Elan.Coordinator
import Elan.Fleet
import Elan.StreamedAnswers
import Elan.Listings
import Elan.TuiRuns
