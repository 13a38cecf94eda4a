import StringAudit.Main
import StringAudit.Proofs.Action
import StringAudit.Proofs.Resource.Line
import StringAudit.Proofs.Resource.Removal
import StringAudit.Proofs.Resource.Extraction
import StringAudit.Proofs.Resource.Agreement
import StringAudit.Proofs.Resource.CarriageReturn
import StringAudit.Proofs.Reference
import StringAudit.Proofs.Writer
import StringAudit.Proofs.Detection
import StringAudit.Proofs.Disk.Look
import StringAudit.Proofs.Disk.Route
import StringAudit.Proofs.Disk.Overwrite
import StringAudit.Proofs.Disk.Path
import StringAudit.Proofs.Disk.Target
import StringAudit.Proofs.TextFile
import StringAudit.Proofs.Cleanup.Step
import StringAudit.Proofs.Cleanup.Frame
import StringAudit.Proofs.CommandLine.Run
import StringAudit.Proofs.Charset.Utf16
import StringAudit.Proofs.Charset.Reading
import StringAudit.Proofs.Disk.Order
import StringAudit.Proofs.Collection
import StringAudit.Proofs.Cleanup.Remains
import StringAudit.Proofs.Cleanup.Again
import StringAudit.Proofs.Settings
import StringAudit.Proofs.Charset.Ascii
import StringAudit.Proofs.Progress
import StringAudit.Proofs.Delivery
import StringAudit.Proofs.Detection.Failing
import StringAudit.Proofs.Detection.RootOrder
import StringAudit.Proofs.Pool
import StringAudit.Proofs.Detection.Pool
import StringAudit.Proofs.CommandLine.Failed
import StringAudit.Proofs.Charset.ReadBack
import StringAudit.Proofs.Cleanup.ReadBack
import StringAudit.Proofs.Detection.Exact
import StringAudit.Proofs.Collection.Traversal
import StringAudit.Proofs.Detection.Stops
import StringAudit.Proofs.TextFile.Atomic
import StringAudit.Proofs.Disk.Astray
import StringAudit.Proofs.TextFile.Elsewhere
import StringAudit.Proofs.Cleanup.Attempt
import StringAudit.Proofs.Findings
import StringAudit.Proofs.Cleanup.Isolation
import StringAudit.Proofs.Detection.Storyboards
import StringAudit.Proofs.Charset.Form
import StringAudit.Proofs.Disk.Alike
import StringAudit.Proofs.Detection.StoredForm
import StringAudit.Proofs.Settings.Outcome
import StringAudit.Proofs.CommandLine.Refused
import StringAudit.Proofs.CommandLine.Arguments
import StringAudit.Proofs.CommandLine.Returns
import StringAudit.Proofs.Detection.MoreRoots
import StringAudit.Proofs.CommandLine.Quiet
import StringAudit.Proofs.CommandLine.BareWords
import StringAudit.Proofs.Cleanup.Bytes
import StringAudit.Proofs.CommandLine.Values
import StringAudit.Proofs.Collection.Exact
import StringAudit.Proofs.Collection.Extension
import StringAudit.Proofs.Collection.Naming
import StringAudit.Proofs.Collection.Pruning
import StringAudit.Proofs.Collection.Ways
import StringAudit.Proofs.Detection.Allowance
import StringAudit.Proofs.Disk.Below
import StringAudit.Proofs.Writer.Accounting
import StringAudit.Proofs.Charset.Decoding
import StringAudit.Proofs.Writer.ReadBack
import StringAudit.Proofs.Settings.Grammar
import StringAudit.Proofs.CommandLine.Groups
import StringAudit.Proofs.CommandLine.Switches
import StringAudit.Proofs.Resource.Padding
import StringAudit.Proofs.Resource.Reading
import StringAudit.Proofs.Report.Plain
import StringAudit.Proofs.Report.Document
import StringAudit.Proofs.Reference.Exact
