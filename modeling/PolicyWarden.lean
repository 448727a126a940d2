import PolicyWarden.Journal.Line
import PolicyWarden.Json.Fault
import PolicyWarden.Rehearsal.Step
import PolicyWarden.Proofs.Gateway.Substitution
import PolicyWarden.Proofs.Remediation.Rounds
import PolicyWarden.Proofs.Remediation.Discipline
import PolicyWarden.Proofs.Rehearsal.Desk
import PolicyWarden.Proofs.Rehearsal.Interleaving
import PolicyWarden.Proofs.Rehearsal.Account
import PolicyWarden.Proofs.Remediation.Commitment
import PolicyWarden.Proofs.Store.Purging
import PolicyWarden.Proofs.Rehearsal.Quiet
import PolicyWarden.Proofs.Remediation.Undisturbed
import PolicyWarden.Proofs.Intake.Redelivery
import PolicyWarden.Proofs.Dialogue.Course
import PolicyWarden.Proofs.Gateway.Expansion
import PolicyWarden.Proofs.Text.Base64
import PolicyWarden.Proofs.Gateway.Service
import PolicyWarden.Proofs.Remediation.Requests
import PolicyWarden.Proofs.Gateway.RoundTrip
import PolicyWarden.Proofs.Dialogue.Rules
import PolicyWarden.Proofs.Timeline.Ageing
import PolicyWarden.Proofs.Rehearsal.Walk
import PolicyWarden.Proofs.Remediation.Budget
import PolicyWarden.Proofs.Rehearsal.Forward
import PolicyWarden.Proofs.Intake.Clocks
import PolicyWarden.Proofs.Intake.Limits
import PolicyWarden.Proofs.Rehearsal.Notes
import PolicyWarden.Proofs.Intake.Overlap
import PolicyWarden.Proofs.Dialogue.Counting
import PolicyWarden.Proofs.Remediation.Attempts
import PolicyWarden.Proofs.Intake.Authorization
import PolicyWarden.Proofs.Intake.Acknowledgement
import PolicyWarden.Proofs.Configuration.Keeping
import PolicyWarden.Proofs.Intake.Succession
import PolicyWarden.Proofs.Json.RoundTrip
import PolicyWarden.Proofs.Finding.RoundTrip
import PolicyWarden.Proofs.Gateway.Classification
import PolicyWarden.Proofs.Policy.Purging
import PolicyWarden.Proofs.Policy.Comparison
import PolicyWarden.Proofs.Remediation.Trail
import PolicyWarden.Proofs.Remediation.Blame
import PolicyWarden.Proofs.Remediation.Success
import PolicyWarden.Proofs.Finding.Acceptance
import PolicyWarden.Proofs.Configuration.Acceptance
import PolicyWarden.Proofs.Organization.Naming
import PolicyWarden.Proofs.Configuration.Effect
import PolicyWarden.Proofs.Rehearsal.Expiry
import PolicyWarden.Proofs.Finding.Encodings
import PolicyWarden.Proofs.Finding.Properties
