import Assay.Examples
import Assay.Json.Reader
import Assay.Proofs.Caching
import Assay.Proofs.Calls
import Assay.Proofs.Contract
import Assay.Proofs.Endings
import Assay.Proofs.Equality
import Assay.Proofs.FirstUse
import Assay.Proofs.Flaws
import Assay.Proofs.Inlining
import Assay.Proofs.Interpretation
import Assay.Proofs.Listening
import Assay.Proofs.Path
import Assay.Proofs.Preview
import Assay.Proofs.Reentry
import Assay.Proofs.Selection
import Assay.Proofs.Storage
import Assay.Proofs.Threshold
import Assay.Proofs.Warnings
import Assay.Proofs.Writing
import Assay.Report
