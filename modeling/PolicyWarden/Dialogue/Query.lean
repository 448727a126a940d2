import PolicyWarden.Configuration.Settings
import PolicyWarden.Journal.Entry
import PolicyWarden.Service.Wire
import PolicyWarden.Timeline.Basic

/-!
# Queries

A query is anything that a remediation wants from the world around it: an entry in the journal, the
time that is left, a policy, a call of the service.  Each query has a type of replies.
-/

namespace PolicyWarden

/-- A policy and the text form of the version at which it was read. -/
structure VersionedPolicy where
  policy : Policy
  version : Text
  deriving DecidableEq, Repr

/-- How a call under a deadline ends: it fails before it can be waited for, it settles, or the
invocation is aborted first. -/
inductive Race (α : Type) where
  | refused (failure : Failure)
  | settled (result : Except Failure α)
  | aborted (reason : Failure)

/-- What the journal keeps beside each entry while an event is handled. -/
inductive JournalKey where
  | eventId
  | findingName
  deriving DecidableEq, Repr

/-- The name of a journal key. -/
def JournalKey.name : JournalKey → Text
  | eventId => "eventId"
  | findingName => "findingName"

/-- Something that is asked of the world. -/
inductive Query where
  /-- Write an entry into the journal. -/
  | record (entry : Entry)
  /-- Keep a value beside all later entries. -/
  | retain (key : JournalKey) (value : Json)
  /-- Keep the values of some keys no longer. -/
  | release (keys : List JournalKey)
  /-- Read the settings. -/
  | settings
  /-- Load the configuration. -/
  | configuration
  /-- Open an invocation with a time limit; it becomes the current one. -/
  | invoke (timeout : Number)
  /-- Ask whether the current invocation may go on. -/
  | standing
  /-- Get an organization. -/
  | organization (id : Text)
  /-- Get the policy of a resource. -/
  | policy (resource : Text)
  /-- Replace the policy of a resource if its version is still the one that was read. -/
  | write (resource : Text) (policy : Policy) (version : Text)
  /-- Call the service with a time limit in milliseconds, if one is known. -/
  | call (call : Service.Call) (timeout : Option Nat)
  /-- Make a call of no particular kind with a time limit in milliseconds, if one is known. -/
  | errand (timeout : Option Nat)
  /-- Let everyone else take a turn. -/
  | pause
  deriving DecidableEq, Repr

/-- The replies to a query. -/
abbrev Query.Reply : Query → Type
  | record _ => Unit
  | retain _ _ => Unit
  | release _ => Unit
  | settings => Except Failure Settings
  | configuration => Except Failure Configuration
  | invoke _ => Except Failure Unit
  | standing => Standing
  | organization _ => Except Failure Organization
  | policy _ => Except Failure VersionedPolicy
  | write _ _ _ => Except Failure Unit
  | call c _ => Race c.Reply
  | errand _ => Race (Option Json)
  | pause => Unit

end PolicyWarden
