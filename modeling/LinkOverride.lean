import LinkOverride.Main
import LinkOverride.Proofs.Ending
import LinkOverride.Proofs.Lifecycle
import LinkOverride.Proofs.Mirror
import LinkOverride.Proofs.ProfileOption
import LinkOverride.Proofs.Readiness
import LinkOverride.Proofs.Remainder
import LinkOverride.Proofs.Resolution
import LinkOverride.Proofs.Restoration
import LinkOverride.Proofs.Stopping
import LinkOverride.Proofs.Skipping
import LinkOverride.Proofs.Precedence
import LinkOverride.Proofs.Retry
import LinkOverride.Proofs.Standing
import LinkOverride.Proofs.ExitCode
import LinkOverride.Proofs.Calls
import LinkOverride.Proofs.Refusal
import LinkOverride.Proofs.Origin
import LinkOverride.Proofs.Issue
import LinkOverride.Proofs.Chain
import LinkOverride.Proofs.Span
import LinkOverride.Proofs.Assignment
import LinkOverride.Proofs.Reading
import LinkOverride.Proofs.FailedWrite
import LinkOverride.Proofs.Printed
import LinkOverride.Proofs.TimeLimit
import LinkOverride.Proofs.FirstFile
import LinkOverride.Proofs.Dispatch
import LinkOverride.Proofs.Limited
import LinkOverride.Proofs.Untouched
import LinkOverride.Proofs.SudoSwitch
import LinkOverride.Proofs.RandomAddress
import LinkOverride.Proofs.HelpPage
import LinkOverride.Proofs.Rendering
