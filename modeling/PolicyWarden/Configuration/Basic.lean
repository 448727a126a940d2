import PolicyWarden.Failure.Basic
import PolicyWarden.Organization
import PolicyWarden.Schema.Check
import PolicyWarden.Text.Blank

/-!
# Configurations

A configuration lists the domains that are allowed besides the organization's own, and the
organizations that are to be remediated.  `Configuration.ofJson` accepts the documents of this shape
and names every issue of the others.  A missing list of domains is empty, and a missing list of
resources means every organization.
-/

namespace PolicyWarden

/-- What a remediation is allowed to keep, and where it applies. -/
structure Configuration where
  allowDomains : List Text
  resources : Option (List Text)
  deriving DecidableEq, Repr

namespace Configuration

open Schema

/-! ### Checks -/

/-- Everything that is wrong with a domain. -/
def domainDefects (domain : Text) : List Defect :=
  (if domain.isEmpty then [.emptyDomain] else []) ++
    (if domain.contains (CodeUnit.ofChar '@') then [.domainHasAt] else []) ++
    if domain.any CodeUnit.isBlank then [.domainHasBlank] else []

/-- Everything that is wrong with the name of a resource. -/
def resourceDefects (resource : Text) : List Defect :=
  if Organization.isResourceName resource then [] else [.resourceName]

/-- A text without defects. -/
def sound (defects : Text → List Defect) (path : Path) (part : Option Json) : Checked Text :=
  (text path part).bind fun t =>
    match defects t with
    | [] => .accepted t
    | found => .rejected (found.map fun defect => ⟨path, defect⟩)

/-- The allowed domains; none if they are missing. -/
def checkDomains (path : Path) (part : Option Json) : Checked (List Text) :=
  (optional (listOf (sound domainDefects)) path part).map fun domains => domains.getD []

/-- The listed resources; no list if it is missing or null. -/
def checkResources (path : Path) : Option Json → Checked (Option (List Text))
  | some .null => .accepted none
  | part => optional (listOf (sound resourceDefects)) path part

/-- The key of the allowed domains. -/
def domainsKey : Text :=
  "AllowDomains"

/-- The key of the listed resources. -/
def resourcesKey : Text :=
  "Resources"

/-- Check a document, which may be missing as a whole. -/
def check (document : Option Json) : Checked Configuration :=
  (record [] document).bind fun members =>
    ((checkDomains [.key domainsKey] (Json.lookup domainsKey members)).map Configuration.mk)
      |>.apply (checkResources [.key resourcesKey] (Json.lookup resourcesKey members))

/-! ### Documents -/

/-- Raise a defect of a configuration. -/
def unusable {α : Type} (defect : ConfigurationDefect) (cause : Failure) : Except Failure α :=
  .error (.problem (.configuration defect) cause)

/-- The configuration of a document. -/
def ofJson (document : Option Json) : Except Failure Configuration :=
  match check document with
  | .accepted configuration => .ok configuration
  | .rejected issues => unusable (.invalid issues) (.schema issues)

/-- The list of resources as a JSON value. -/
def resourcesJson : Option (List Text) → Json
  | none => .null
  | some resources => .array (resources.map .text)

/-- The document of a configuration. -/
def toJson (c : Configuration) : Json :=
  .object [(domainsKey, .array (c.allowDomains.map .text)),
    (resourcesKey, resourcesJson c.resources)]

/-- The resource is to be remediated: it is listed, or there is no list to be on. -/
def covers (c : Configuration) (resource : Text) : Bool :=
  match c.resources with
  | none | some [] => true
  | some resources => resources.contains resource

end Configuration

end PolicyWarden
