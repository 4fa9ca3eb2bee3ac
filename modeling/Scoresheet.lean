import Scoresheet.Main
import Scoresheet.Proofs.Command.Scoring
import Scoresheet.Proofs.Formula.FreeVariables
import Scoresheet.Proofs.Formula.Placement
import Scoresheet.Proofs.Formula.StraySigns
import Scoresheet.Proofs.Report.Page
import Scoresheet.Proofs.Report.StoredComparison
import Scoresheet.Proofs.Report.Unchanged
import Scoresheet.Proofs.Report.Unescaping
import Scoresheet.Proofs.Scoring.Conservation
import Scoresheet.Proofs.Scoring.FiniteScores
import Scoresheet.Proofs.Scoring.Tally
import Scoresheet.Proofs.Scoring.Values
import Scoresheet.Proofs.Session.Directory
import Scoresheet.Proofs.Session.Reading
import Scoresheet.Proofs.Signing.Canonical
