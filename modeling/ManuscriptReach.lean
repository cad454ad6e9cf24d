import ManuscriptReach.Main
import ManuscriptReach.Host.Workspace
import ManuscriptReach.Proofs.Stages
import ManuscriptReach.Proofs.Meaning
import ManuscriptReach.Proofs.Sharing
import ManuscriptReach.Proofs.Narrowing
import ManuscriptReach.Proofs.AlongZones
import ManuscriptReach.Proofs.Acceptance
import ManuscriptReach.Proofs.Described
import ManuscriptReach.Proofs.CountedSpreads
import ManuscriptReach.Proofs.Enlarging
import ManuscriptReach.Proofs.Json.Literal
import ManuscriptReach.Proofs.Json.Numeral
import ManuscriptReach.Proofs.Json.Text
import ManuscriptReach.Proofs.Json.Record
import ManuscriptReach.Proofs.Pieces
import ManuscriptReach.Proofs.ReportText
import ManuscriptReach.Proofs.Streams
import ManuscriptReach.Proofs.Canonical
import ManuscriptReach.Proofs.FirstFault
import ManuscriptReach.Proofs.Registry
import ManuscriptReach.Proofs.Widening
import ManuscriptReach.Proofs.Accounting
import ManuscriptReach.Proofs.OnePass
import ManuscriptReach.Proofs.Consolidation
import ManuscriptReach.Proofs.Restating
import ManuscriptReach.Proofs.RowOrder
import ManuscriptReach.Proofs.ReadOnly
import ManuscriptReach.Proofs.BadInputs
import ManuscriptReach.Proofs.TokenParts
import ManuscriptReach.Proofs.LineEnds
import ManuscriptReach.Proofs.RegistryText
import ManuscriptReach.Proofs.WorkspaceFiles
import ManuscriptReach.Proofs.ReportBytes
import ManuscriptReach.Proofs.Gathering
import ManuscriptReach.Proofs.RaisingBound
import ManuscriptReach.Proofs.Neighbours
import ManuscriptReach.Proofs.ClassIndex
import ManuscriptReach.Proofs.ClassMembers
import ManuscriptReach.Proofs.RegistryLayout
import ManuscriptReach.Proofs.Filing
import ManuscriptReach.Proofs.CompleteReports
import ManuscriptReach.Proofs.FilingByHand
import ManuscriptReach.Proofs.Number.Rounding
import ManuscriptReach.Proofs.Json.Double
import ManuscriptReach.Proofs.ExpectedBands
import ManuscriptReach.Proofs.Number.Mean
import ManuscriptReach.Proofs.SummaryText
import ManuscriptReach.Proofs.RunSummary
