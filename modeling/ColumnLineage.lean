import ColumnLineage.Main
import ColumnLineage.Proofs.CteScoping
import ColumnLineage.Proofs.ScriptFindings
import ColumnLineage.Proofs.ScriptRoundTrip
import ColumnLineage.Proofs.Documents
import ColumnLineage.Proofs.DirectoryReports
import ColumnLineage.Proofs.OverlookedColumns
import ColumnLineage.Proofs.WellFormedGraphs
import ColumnLineage.Proofs.DepthBound
import ColumnLineage.Proofs.StarColumns
import ColumnLineage.Proofs.SchemaPaths
import ColumnLineage.Proofs.ColumnLists
import ColumnLineage.Proofs.CatalogLookups
import ColumnLineage.Proofs.StarArguments
import ColumnLineage.Proofs.LetterCase
