import Runbook.Agent.Rehearsal
import Runbook.Folder
import Runbook.Json.Reader
import Runbook.Player.Run
import Runbook.Proofs.Destination
import Runbook.Proofs.Gesture
import Runbook.Proofs.Locator
import Runbook.Proofs.Player.Failures
import Runbook.Proofs.Player.Notices
import Runbook.Proofs.Player.Operations
import Runbook.Proofs.Player.Outcome
import Runbook.Proofs.Player.Regrouping
import Runbook.Proofs.Player.Session
import Runbook.Proofs.Player.Tips
import Runbook.Proofs.Results.Unnamed
import Runbook.Proofs.Schema.BareStrings
import Runbook.Proofs.Schema.Conformance
import Runbook.Proofs.Schema.Listing
import Runbook.Proofs.Schema.Opacity
import Runbook.Proofs.Script.DeviceIds
import Runbook.Proofs.Script.Expansion
import Runbook.Proofs.Script.QuotedIds
import Runbook.Proofs.Script.TargetCheck
import Runbook.Proofs.Step.Bystanders
import Runbook.Proofs.Step.Conflicts
import Runbook.Proofs.Step.Pauses
import Runbook.Proofs.Step.Points
import Runbook.Proofs.Step.RichPrompts
import Runbook.Proofs.Step.Unsaid
import Runbook.Script.Load
