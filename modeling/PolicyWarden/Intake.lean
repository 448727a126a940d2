import PolicyWarden.Event
import PolicyWarden.Finding.Basic
import PolicyWarden.Remediation.Basic

/-!
# Intake of events

An event is acknowledged when its remediation finished, when there is nothing to do, and when
delivering it again could not help; otherwise the failure is handed back, so that the event is
delivered again.  A failure that cannot be described is not recorded, and what is handed back is
that there was no description.
-/

namespace PolicyWarden

namespace Intake

/-! ### From the event to the remediation -/

/-- The finding that an event carries. -/
def finding (event : Event) : Except Failure Finding :=
  match event.payload with
  | .ok (some bytes) => Finding.readBytes nonOrgMemberCategory bytes
  | .ok none => Notification.malformed .noData .absent
  | .error failure => .error failure

/-- Record how a remediation ended. -/
def conclude (outcome : Outcome) : Attempt Unit :=
  .andThen (.record (.finished outcome)) (Attempt.ok ())

/-- Remediate the organization of a finding with the settings and the configuration of the
moment. -/
def remediate (gateway : Gateway) (finding : Finding) : Attempt Unit :=
  Attempt.next (.query .settings) fun settings =>
    Attempt.next (.query .configuration) fun configuration =>
      Attempt.next (.query (.invoke settings.timeout)) fun _ =>
        Attempt.next (Remediation.execute gateway
          ⟨configuration, finding.organizationId, some settings.writeAttempts⟩).awaited conclude

/-- Do what a finding asks for; one that is no longer active asks for nothing. -/
def follow (gateway : Gateway) (finding : Finding) : Attempt Unit :=
  .andThen (.retain .findingName (.text finding.name)) <|
    .andThen (.record (.received finding)) <|
      match finding.state with
      | .active => remediate gateway finding
      | .inactive => .andThen (.record .inactive) (Attempt.ok ())

/-- Read an event and do what its finding asks for. -/
def process (gateway : Gateway) (event : Event) : Attempt Unit :=
  match finding event with
  | .ok finding => follow gateway finding
  | .error failure => Attempt.fail failure

/-! ### From the result to the answer -/

/-- What is recorded about a failure, if it can be described. -/
def failureEntry (event : Event) (failure : Failure) : Except Failure Entry :=
  match failure.problem? with
  | some (.unsupportedCategory category expected) => .ok (.unsupported category expected)
  | some (.malformedPayload _) =>
      failure.describe.map fun description => .malformed description event.messageId
  | _ => failure.describe.map .failed

/-- The failure is final: the event is not wanted again. -/
def isFinal (failure : Failure) : Bool :=
  match failure.problem? with
  | some (.unsupportedCategory _ _) | some (.malformedPayload _) => true
  | _ => false

/-- The answer to an event whose remediation failed. -/
def answer (failure : Failure) : Except Failure Unit :=
  if isFinal failure then .ok () else .error failure

/-- The keys that are kept while an event is handled. -/
def keys : List JournalKey :=
  [.eventId, .findingName]

/-- Give the keys back and answer. -/
def release (result : Except Failure Unit) : Attempt Unit :=
  .andThen (.release keys) (.done result)

/-- Record a failure, give the keys back and answer. -/
def wrapUp (event : Event) : Except Failure Unit → Attempt Unit
  | .ok _ => release (.ok ())
  | .error failure =>
      match failureEntry event failure with
      | .ok entry => .andThen (.record entry) (release (answer failure))
      | .error undescribed => release (.error undescribed)

/-- Handle an event. -/
def handle (gateway : Gateway) (event : Event) : Attempt Unit :=
  .andThen (.retain .eventId event.recordedId) <|
    (process gateway event).awaited.bind (wrapUp event)

/-- Handle what was delivered, which must be an event. -/
def receive (gateway : Gateway) : Except Void Event → Attempt Unit
  | .ok event => handle gateway event
  | .error void => Attempt.fail (.noField "id" void)

end Intake

end PolicyWarden
