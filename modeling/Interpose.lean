import Interpose.Exchange.Catalog
import Interpose.Exchange.Plan
import Interpose.Exchange.Report
import Interpose.Exchange.Settings
import Interpose.Json.Printer
import Interpose.Json.Reader
import Interpose.Session
import Interpose.Proofs.Execution
import Interpose.Proofs.Locals
import Interpose.Proofs.Forwarding
import Interpose.Proofs.Accounting
import Interpose.Proofs.Naming
import Interpose.Proofs.Scopes
import Interpose.Proofs.ArtifactNames
import Interpose.Proofs.Gathering
import Interpose.Proofs.Skipping
import Interpose.Proofs.Conformance
import Interpose.Proofs.Reordering
import Interpose.Proofs.Lines
import Interpose.Proofs.Outlines
import Interpose.Proofs.Selectors
import Interpose.Proofs.Dispatching
import Interpose.Proofs.Interleaving
import Interpose.Proofs.TidyArtifacts
import Interpose.Proofs.Guards
import Interpose.Proofs.MemberWords
import Interpose.Proofs.OpenTypes
import Interpose.Proofs.Shadowing
import Interpose.Proofs.Interception
import Interpose.Proofs.Registers
import Interpose.Proofs.Reachability
import Interpose.Proofs.Omissions
import Interpose.Proofs.Restoring
import Interpose.Proofs.ClassNames
import Interpose.Proofs.Preorder
import Interpose.Proofs.Extraction
import Interpose.Proofs.Remerging
import Interpose.Proofs.Violations
import Interpose.Proofs.Refusals
import Interpose.Proofs.Selection
import Interpose.Proofs.Spacing
import Interpose.Proofs.ClosedTypes
import Interpose.Proofs.Sections
import Interpose.Proofs.Bypassing
import Interpose.Proofs.Runs
import Interpose.Proofs.Sharing
import Interpose.Proofs.ContextClasses
import Interpose.Proofs.FreeNames
import Interpose.Proofs.OwnClasses
