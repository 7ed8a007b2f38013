import Hostcall.CommandLine.Directory
import Hostcall.Main
import Hostcall.Proofs.Tree.Proper
import Hostcall.Text.Utf8.Lemmas
import Hostcall.Proofs.Tree.Operations
import Hostcall.Proofs.Machine.Failure
import Hostcall.Proofs.Machine.Build
import Hostcall.Proofs.Facade.WriteAll
import Hostcall.Proofs.Json.Lexeme
import Hostcall.Proofs.Json.Number
import Hostcall.Proofs.Machine.Snapshot
import Hostcall.Proofs.Facade.Discipline
import Hostcall.Proofs.Machine.WriteCap
import Hostcall.Proofs.Facade.WholeWrites
import Hostcall.Proofs.Machine.EmptyWrite
import Hostcall.Proofs.Machine.Removed
import Hostcall.Proofs.Facade.Accounts
import Hostcall.Proofs.Machine.AppendOnly
import Hostcall.Proofs.Snapshot.Ancestors
import Hostcall.Proofs.Machine.Isolation
import Hostcall.Proofs.Checked.WordsSuffice
import Hostcall.Proofs.Facade.Absent
import Hostcall.Proofs.Machine.Access
import Hostcall.Proofs.Machine.Stopping
import Hostcall.Proofs.Machine.Output
import Hostcall.Proofs.Machine.Places
import Hostcall.Proofs.Machine.Exclusive
import Hostcall.Text.Utf8.WithoutNul
import Hostcall.Proofs.Machine.CurrentDirectory
import Hostcall.Proofs.Machine.DescriptorTable
import Hostcall.Proofs.Path.Resolve
import Hostcall.Proofs.Facade.Returns
import Hostcall.Proofs.Applet.Custody
import Hostcall.Proofs.Applet.Verdicts
import Hostcall.Proofs.Machine.Admits
import Hostcall.Proofs.Machine.View
import Hostcall.Proofs.Applet.RoundTrip
import Hostcall.Proofs.Machine.RelativePaths
import Hostcall.Proofs.Machine.Overlay
import Hostcall.Proofs.Facade.Writer
import Hostcall.Proofs.Facade.Formatted
import Hostcall.Proofs.Machine.Opening
import Hostcall.Proofs.Tree.Seeding
import Hostcall.Proofs.CommandLine.Grammar
import Hostcall.Proofs.Machine.Arguments
import Hostcall.Proofs.Applet.Listing
import Hostcall.Proofs.Facade.Sleeping
import Hostcall.Proofs.Machine.Clock
