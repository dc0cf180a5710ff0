import Repost.Acceptance
import Repost.AdmissionAccounting
import Repost.AsciiValues
import Repost.AttemptDiscipline
import Repost.CloseDrains
import Repost.ClosedSchema
import Repost.Conformance
import Repost.ConnectionReuse
import Repost.ContentType
import Repost.Demultiplexing
import Repost.Envelope
import Repost.FactoryParity
import Repost.IssueCaps
import Repost.JsonExact
import Repost.LaneParity
import Repost.LimitAgreement
import Repost.NestedCycles
import Repost.OrderedKeys
import Repost.OriginConnections
import Repost.OutcomeShape
import Repost.ParseExact
import Repost.PoolWaiting
import Repost.RawDoubt
import Repost.ReceiveCredit
import Repost.ReportTraces
import Repost.ResponsesClosed
import Repost.SafePaths
import Repost.SendCredit
import Repost.SessionReset
import Repost.SessionWindow
import Repost.TableRuns
import Repost.TelemetryNeutral
import Repost.ViolationReports
import Repost.WriteExact
