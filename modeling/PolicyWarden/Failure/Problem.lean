import PolicyWarden.Schema.Issue

/-!
# Problems of a remediation

A problem is a failure that the library itself raises.  It has a kind, a message, the stage in
which it came up, often a resource, and it says whether delivering the event again can help.
-/

namespace PolicyWarden

/-! ### Stages -/

/-- What a remediation is doing. -/
inductive Stage where
  | parse
  | configuration
  | fetchOrganization
  | fetchPolicy
  | writePolicy
  /-- A stage with a name of its own. -/
  | other (name : Text)
  deriving DecidableEq, Repr

/-- The name of a stage. -/
def Stage.name : Stage → Text
  | parse => "parse"
  | configuration => "configuration"
  | fetchOrganization => "fetch-organization"
  | fetchPolicy => "fetch-policy"
  | writePolicy => "write-policy"
  | other name => name

/-- The stage with a name. -/
def Stage.ofName (name : Text) : Stage :=
  ([parse, configuration, fetchOrganization, fetchPolicy, writePolicy].find?
    fun stage => stage.name = name).getD (other name)

/-! ### Defects -/

/-- What is wrong with a notification. -/
inductive PayloadDefect where
  /-- The event carries no data. -/
  | noData
  /-- The data is not JSON. -/
  | notJson
  /-- The document does not fit the schema of findings. -/
  | schema (issues : List Schema.Issue)
  /-- Neither path of the finding leads through an organization. -/
  | noOrganization (parent resourceName : Text)
  /-- A source property is not there. -/
  | missingProperty (finding key : Text)
  /-- A source property does not have the shape asked for. -/
  | misshapenProperty (finding key : Text)
  /-- A defect in words of its own. -/
  | described (message : Text)
  deriving DecidableEq, Repr

/-- What is said about a defect of a notification. -/
def PayloadDefect.message : PayloadDefect → Text
  | noData => "Pub/Sub message carries no data"
  | notJson => "Notification payload is not valid JSON"
  | schema issues =>
      ("Notification payload does not match the finding schema: " : Text) ++
        Schema.lines [] issues
  | noOrganization parent resourceName =>
      ("Unable to extract an organization id from parent \"" : Text) ++ parent ++
        "\" or resourceName \"" ++ resourceName ++ "\""
  | missingProperty finding key =>
      ("Finding " : Text) ++ finding ++ " has no source property \"" ++ key ++ "\""
  | misshapenProperty finding key =>
      ("Source property \"" : Text) ++ key ++ "\" of finding " ++ finding ++
        " has an unexpected shape"
  | described message => message

/-- What is wrong with the configuration. -/
inductive ConfigurationDefect where
  /-- The file cannot be read. -/
  | unreadable (path : Text)
  /-- The file is not JSON. -/
  | notJson (path : Text)
  /-- The document does not fit the schema of configurations. -/
  | invalid (issues : List Schema.Issue)
  /-- A setting is not a positive integer. -/
  | setting (name value : Text)
  /-- A defect in words of its own. -/
  | described (message : Text)
  deriving DecidableEq, Repr

/-- What is said about a defect of the configuration. -/
def ConfigurationDefect.message : ConfigurationDefect → Text
  | unreadable path => ("Unable to read remediation configuration from " : Text) ++ path
  | notJson path => ("Remediation configuration at " : Text) ++ path ++ " is not valid JSON"
  | invalid issues =>
      ("Invalid remediation configuration: " : Text) ++ Schema.lines "<root>" issues
  | setting name value => name ++ " must be a positive integer, got \"" ++ value ++ "\""
  | described message => message

/-! ### Problems -/

/-- A failure that the library raises. -/
inductive Problem where
  /-- The finding belongs to another remediation. -/
  | unsupportedCategory (category expected : Text)
  /-- The notification cannot be used. -/
  | malformedPayload (defect : PayloadDefect)
  /-- The configuration or a setting cannot be used. -/
  | configuration (defect : ConfigurationDefect)
  /-- The organization or its policy cannot be read. -/
  | policyFetch (resource : Text) (stage : Stage)
  /-- The policy cannot be written. -/
  | policyWrite (resource : Text)
  /-- The policy changed between reading and writing. -/
  | concurrentModification (resource : Text)
  /-- The invocation was aborted, or its deadline has passed. -/
  | deadlineExceeded (stage : Stage) (resource : Option Text)
  deriving DecidableEq, Repr

namespace Problem

/-- The name of the kind of a problem. -/
def kindName : Problem → Text
  | unsupportedCategory _ _ => "UnsupportedFindingCategoryError"
  | malformedPayload _ => "MalformedPayloadError"
  | configuration _ => "ConfigurationError"
  | policyFetch _ _ => "PolicyFetchError"
  | policyWrite _ => "PolicyWriteError"
  | concurrentModification _ => "ConcurrentModificationError"
  | deadlineExceeded _ _ => "DeadlineExceededError"

/-- What could not be fetched in a stage. -/
def fetched (stage : Stage) : Text :=
  if stage = .fetchOrganization then "get organization" else "get IAM policy"

/-- The resource as it ends a message; an empty one is not named. -/
def onResource : Option Text → Text
  | some (u :: rest) => (" on " : Text) ++ (u :: rest)
  | _ => []

/-- The message of a problem. -/
def message : Problem → Text
  | unsupportedCategory category expected =>
      ("Unsupported finding category \"" : Text) ++ category ++ "\", expected \"" ++ expected ++
        "\""
  | malformedPayload defect => defect.message
  | configuration defect => defect.message
  | policyFetch resource stage => ("Failed to " : Text) ++ fetched stage ++ " for " ++ resource
  | policyWrite resource => ("Failed to set IAM policy for " : Text) ++ resource
  | concurrentModification resource =>
      ("IAM policy for " : Text) ++ resource ++ " was modified concurrently"
  | deadlineExceeded stage resource =>
      ("Invocation deadline exceeded before " : Text) ++ stage.name ++ onResource resource

/-- The stage in which a problem comes up. -/
def stage : Problem → Stage
  | unsupportedCategory _ _ => .parse
  | malformedPayload _ => .parse
  | configuration _ => .configuration
  | policyFetch _ stage => stage
  | policyWrite _ => .writePolicy
  | concurrentModification _ => .writePolicy
  | deadlineExceeded stage _ => stage

/-- The resource that a problem is about. -/
def resource? : Problem → Option Text
  | policyFetch resource _ => some resource
  | policyWrite resource => some resource
  | concurrentModification resource => some resource
  | deadlineExceeded _ resource => resource
  | unsupportedCategory _ _ | malformedPayload _ | configuration _ => none

/-- Delivering the event again can help. -/
def retryable : Problem → Bool
  | unsupportedCategory _ _ | malformedPayload _ | configuration _ => false
  | policyFetch _ _ | policyWrite _ | concurrentModification _ | deadlineExceeded _ _ => true

end Problem

end PolicyWarden
