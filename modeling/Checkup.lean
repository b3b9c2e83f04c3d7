import Checkup.Command
import Checkup.Main
import Checkup.Proofs.Examination.Interleaving
import Checkup.Proofs.Inspection.Lines
import Checkup.Proofs.Report.Composition
import Checkup.Proofs.Selection.Restriction
import Checkup.Proofs.Examination.Disabling
import Checkup.Proofs.Examination.Isolation
import Checkup.Proofs.Examination.Records
import Checkup.Proofs.Examination.Totality
import Checkup.Proofs.Report.RefMisuses
import Checkup.Proofs.Selection.Modes
import Checkup.Proofs.Render.Views
import Checkup.Proofs.Json.Numbers
import Checkup.Proofs.Json.Strings
import Checkup.Proofs.Json.RoundTrip
import Checkup.Proofs.Render.Payload
import Checkup.Proofs.Component.Extraction
import Checkup.Proofs.Inspection.Shifting
import Checkup.Proofs.Settings.Sources
import Checkup.Proofs.Settings.Saving
import Checkup.Proofs.Glob.Widening
import Checkup.Proofs.Report.Merging
import Checkup.Proofs.Script.RefOperators
import Checkup.Proofs.Inspection.Increasing
import Checkup.Proofs.Script.StoreWrites
import Checkup.Proofs.Selection.Locality
import Checkup.Proofs.Inspection.FinalNewline
import Checkup.Proofs.Script.Navigations
import Checkup.Proofs.Settings.Schema
import Checkup.Proofs.Command.Starter
import Checkup.Proofs.Command.ChangedFiles
