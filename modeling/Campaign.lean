import Campaign.Main
import Campaign.SampleCampaign
import Campaign.Proofs.NestedTables
import Campaign.Proofs.Columns
import Campaign.Proofs.Paths
import Campaign.Proofs.Snapshots
import Campaign.Proofs.Places
import Campaign.Proofs.Catalogs
import Campaign.Proofs.Accounting
import Campaign.Proofs.Aggregations
import Campaign.Proofs.Diagnostics
import Campaign.Proofs.Trees
import Campaign.Proofs.Walks
import Campaign.Proofs.Attribution
import Campaign.Proofs.FigureText
import Campaign.Proofs.CsvLines
import Campaign.Proofs.Summaries
import Campaign.Proofs.ExportOrder
import Campaign.Proofs.RoundTrip
import Campaign.Proofs.Sections
import Campaign.Proofs.Spellings
import Campaign.Proofs.SummaryRows
import Campaign.Proofs.Participants
import Campaign.Proofs.MarkedTables
import Campaign.Proofs.Containment
import Campaign.Proofs.DiskWrites
import Campaign.Proofs.FaithfulExport
import Campaign.Proofs.Rereading
import Campaign.Proofs.RoundingOrder
import Campaign.Proofs.PrintedAmounts
import Campaign.Proofs.Listings
import Campaign.Proofs.WrittenReports
import Campaign.Proofs.StoredFiles
import Campaign.Proofs.SampleCampaigns
import Campaign.Proofs.MirroredTrees
import Campaign.Proofs.ListingOrder
import Campaign.Proofs.CellLookups
import Campaign.Proofs.Isolation
import Campaign.Proofs.RecordTexts
import Campaign.Proofs.LineNumbers
import Campaign.Proofs.Shares
import Campaign.Proofs.Writers
import Campaign.Proofs.ListedDirectories
import Campaign.Proofs.CutReports
import Campaign.Proofs.CutTables
