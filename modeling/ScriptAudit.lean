import ScriptAudit.Diagnostic.Fields
import ScriptAudit.Main
import ScriptAudit.Proofs.Command.ClosedSink
import ScriptAudit.Proofs.Command.FullDisk
import ScriptAudit.Proofs.Concrete.Columns
import ScriptAudit.Proofs.Concrete.Recovery
import ScriptAudit.Proofs.Concrete.Redundancy
import ScriptAudit.Proofs.Concrete.Spans
import ScriptAudit.Proofs.Literal.LegacyOctal
import ScriptAudit.Proofs.Literal.Reading
import ScriptAudit.Proofs.Report.History
import ScriptAudit.Proofs.Report.JsonLines
import ScriptAudit.Proofs.Report.Verbatim
import ScriptAudit.Proofs.Rule.Disclosure
import ScriptAudit.Proofs.Scan.Cutoff
import ScriptAudit.Proofs.Scan.EvalCalls
import ScriptAudit.Proofs.Scan.Justification
import ScriptAudit.Proofs.Scan.Neighbourhood
import ScriptAudit.Proofs.Scan.OutputFaults
import ScriptAudit.Proofs.Scan.ReportLines
import ScriptAudit.Proofs.Scan.Separation
import ScriptAudit.Proofs.Secret.Search
