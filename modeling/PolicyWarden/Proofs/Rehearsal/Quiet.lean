import Mathlib.Tactic.Common
import PolicyWarden.Proofs.Rehearsal.Account
import PolicyWarden.Proofs.Store.Purging

/-!
# Quiet worlds

In a quiet world nothing happens by itself: nobody is awake or waiting, the store works, and no
other writer acts when a policy is read or written.  Whatever is asked of such a world, it stays
quiet, and the surroundings in which events are handled stay what they are.

A remediation in a quiet world comes down to one purging of its resource: there is nobody whom its
write could conflict with.
-/

namespace PolicyWarden

/-! ### The library of configurations -/

namespace ConfigurationLibrary

/-- A load leaves the directory as it is. -/
lemma directory_loadLocation (l : ConfigurationLibrary) (location : Text) :
    (l.loadLocation location).library.directory = l.directory := by
  unfold loadLocation
  split
  · rfl
  · split <;> rfl

/-- A configuration that has been loaded is loaded again. -/
lemma load_library_load (l : ConfigurationLibrary) (environment : Environment)
    (given : Option Text) :
    ((l.load environment given).library.load environment given).result =
      (l.load environment given).result := by
  have same : (l.load environment given).library.locate environment given =
      l.locate environment given := by
    rw [locate, load, directory_loadLocation]
    rfl
  rw [load, same, load]
  generalize l.locate environment given = location
  cases kept : find? location l.kept with
  | some loaded =>
    have first : l.loadLocation location = ⟨.ok loaded, [.cachedConfiguration location], l⟩ := by
      rw [loadLocation, kept]
    rw [first, first]
  | none =>
    cases read : l.read location with
    | error failure =>
      have first : l.loadLocation location = ⟨.error failure, [], l⟩ := by
        rw [loadLocation, kept, read]
      rw [first, first]
    | ok configuration =>
      have first : l.loadLocation location =
          ⟨.ok ⟨configuration, l.readings⟩, [.loadedConfiguration location configuration],
            l.keep location configuration⟩ := by
        rw [loadLocation, kept, read]
      have now : find? location (l.keep location configuration).kept =
          some ⟨configuration, l.readings⟩ := by
        simp [find?, keep]
      rw [first, loadLocation, now]

end ConfigurationLibrary

namespace Rehearsal

namespace World

variable {w v : World} {run : Run}

/-! ### Quiet -/

/-- Nothing happens by itself, the store works, and it is reached directly. -/
structure IsQuiet (w : World) : Prop where
  direct : w.gateway = .direct
  calm : w.IsCalm
  working : w.desk.failures = []
  afterRead : w.desk.afterRead = []
  beforeWrite : w.desk.beforeWrite = []

/-- A world is quiet if it differs from a quiet one only in what makes no noise. -/
lemma IsQuiet.congr (quiet : w.IsQuiet) (gateway : v.gateway = w.gateway)
    (awake : v.awake = w.awake) (waiting : v.waiting = w.waiting)
    (failures : v.desk.failures = w.desk.failures) (afterRead : v.desk.afterRead = w.desk.afterRead)
    (beforeWrite : v.desk.beforeWrite = w.desk.beforeWrite) : v.IsQuiet :=
  ⟨gateway.trans quiet.direct, ⟨awake.trans quiet.calm.awake, waiting.trans quiet.calm.waiting⟩,
    failures.trans quiet.working, afterRead.trans quiet.afterRead,
    beforeWrite.trans quiet.beforeWrite⟩

/-- After a reading nothing happens. -/
lemma IsQuiet.afterRead_eq (quiet : w.IsQuiet) : w.afterRead = w := by
  have hooks := quiet.afterRead
  unfold World.afterRead
  rw [hooks]
  show { w with desk := { w.desk with afterRead := [] } } = w
  rw [← hooks]

/-- Before a write is looked at nothing happens. -/
lemma IsQuiet.beforeWrite_eq (quiet : w.IsQuiet) : w.beforeWrite = w := by
  have hooks := quiet.beforeWrite
  unfold World.beforeWrite
  rw [hooks]
  show { w with desk := { w.desk with beforeWrite := [] } } = w
  rw [← hooks]

/-- An operation that is asked for makes no noise. -/
lemma IsQuiet.counted (quiet : w.IsQuiet) (operation : Operation) :
    (w.counted operation).IsQuiet :=
  quiet.congr rfl rfl rfl rfl rfl rfl

/-- A write that is noted makes no noise. -/
lemma IsQuiet.noteWrite (quiet : w.IsQuiet) (write : RecordedWrite) :
    (w.noteWrite write).IsQuiet :=
  quiet.congr rfl rfl rfl rfl rfl rfl

/-- A write is looked at as soon as it is noted. -/
lemma IsQuiet.atCheck_eq (quiet : w.IsQuiet) (write : RecordedWrite) :
    w.atCheck write = (w.counted .write).noteWrite write :=
  ((quiet.counted .write).noteWrite write).beforeWrite_eq

/-- While the invocation may go on, every operation is let in. -/
lemma IsQuiet.refusal?_eq (quiet : w.IsQuiet) {left : Option Nat}
    (active : w.standing run = .active left) (operation : Operation) (stage : Stage)
    (resource : Text) : w.refusal? run operation stage resource = none := by
  rw [refusal?, active]
  show w.breakdown? operation = none
  rw [breakdown?, quiet.working]
  rfl

section Active

variable {left : Option Nat} {resource version : Text}

/-- While the invocation may go on, a known organization is shown. -/
lemma IsQuiet.deskOrganization_eq (quiet : w.IsQuiet) (active : w.standing run = .active left)
    {id : Text} {organization : Organization}
    (known : w.desk.store.organization? id = some organization) :
    w.deskOrganization run id = (w.counted .organization, .ok organization) := by
  rcases deskOrganization_cases w run id with
    ⟨failure, refused, -⟩ | ⟨-, ⟨other, found, eq⟩ | ⟨missing, -⟩⟩
  · rw [quiet.refusal?_eq active] at refused
    cases refused
  · obtain rfl : organization = other := Option.some.inj (known.symm.trans found)
    exact eq
  · rw [known] at missing
    cases missing

/-- While the invocation may go on, a reading gets what is in the store. -/
lemma IsQuiet.deskPolicy_eq (quiet : w.IsQuiet) (active : w.standing run = .active left) :
    w.deskPolicy run resource = (w.counted .policy, .ok (w.desk.store.fetch resource)) := by
  rcases deskPolicy_cases w run resource with ⟨failure, refused, -⟩ | ⟨-, eq⟩
  · rw [quiet.refusal?_eq active] at refused
    cases refused
  · rw [eq, (quiet.counted _).afterRead_eq]

/-- While the invocation may go on, a write under the version of the store is accepted. -/
lemma IsQuiet.deskWrite_eq (quiet : w.IsQuiet) (active : w.standing run = .active left)
    (policy : Policy) (same : version = (w.desk.store.fetch resource).version) :
    w.deskWrite run resource policy version =
      (((w.counted .write).noteWrite ⟨resource, policy, version⟩).mapStore
        fun s => s.put resource policy, .ok ()) := by
  rcases deskWrite_cases w run resource policy version with
    ⟨failure, refused, -⟩ | ⟨-, ⟨-, eq⟩ | ⟨other, -⟩⟩
  · rw [quiet.refusal?_eq active] at refused
    cases refused
  · rw [eq, quiet.atCheck_eq]
  · rw [quiet.atCheck_eq] at other
    exact absurd same.symm other

end Active

end World

/-! ### Surroundings -/

/-- What events find around them when they are handled: settings, configuration, organizations, and
the clocks by which an invocation is opened and checked. -/
structure Surroundings where
  settings : Except Failure Settings
  configuration : Except Failure Configuration
  organizations : List Organization
  now : Instant
  deadlineOffset : Int
  standingOffset : Int

namespace World

variable {w v : World} {run : Run}

/-- The surroundings that a world offers. -/
def surroundings (w : World) : Surroundings where
  settings := w.readSettings
  configuration :=
    (w.library.load w.environment none).result.map LoadedConfiguration.configuration
  organizations := w.desk.store.organizations
  now := w.timeline.now
  deadlineOffset := w.deadlineOffset
  standingOffset := w.standingOffset

/-- The world `v` is quiet and offers what `w` offered. -/
structure Stays (w v : World) : Prop where
  quiet : v.IsQuiet
  surroundings_eq : v.surroundings = w.surroundings

lemma Stays.trans {u : World} (first : w.Stays v) (second : v.Stays u) : w.Stays u :=
  ⟨second.quiet, second.surroundings_eq.trans first.surroundings_eq⟩

/-- Opening an invocation does not move the clock. -/
lemma now_openInvocation {t later : Timeline} {timeout : Number} {offset : Int}
    (opened : t.openInvocation timeout offset = .ok later) : later.now = t.now := by
  unfold Timeline.openInvocation at opened
  cases read : readTimeout timeout with
  | error failure =>
    rw [read] at opened
    cases opened
  | ok millis =>
    rw [read] at opened
    cases opened
    rfl

/-- A quiet world stays as it is, whatever prompt query is asked. -/
lemma IsQuiet.answer (quiet : w.IsQuiet) (run : Run) (query : Query)
    (prompt : query.isPrompt = true) : w.Stays (w.answer run query).world := by
  have counted (operation : Operation) : w.Stays (w.counted operation) :=
    ⟨quiet.counted operation, rfl⟩
  cases query with
  | call call timeout => cases prompt
  | errand timeout => cases prompt
  | organization id =>
    show w.Stays (w.deskOrganization run id).1
    rw [deskOrganization_fst]
    exact counted _
  | policy resource =>
    show w.Stays (w.deskPolicy run resource).1
    rcases deskPolicy_cases w run resource with ⟨failure, -, eq⟩ | ⟨-, eq⟩ <;> rw [eq]
    · exact counted _
    · rw [(quiet.counted _).afterRead_eq]
      exact counted _
  | write resource policy version =>
    let check := w.atCheck ⟨resource, policy, version⟩
    have eq : check = (w.counted .write).noteWrite _ := quiet.atCheck_eq _
    have noted : w.Stays check := by
      rw [eq]
      exact ⟨(quiet.counted _).noteWrite _, rfl⟩
    show w.Stays (w.deskWrite run resource policy version).1
    rcases deskWrite_cases w run resource policy version with
      ⟨failure, -, eq⟩ | ⟨-, ⟨-, eq⟩ | ⟨-, eq⟩⟩ <;> rw [eq]
    · exact counted _
    · exact ⟨noted.quiet.congr rfl rfl rfl rfl rfl rfl, noted.surroundings_eq⟩
    · exact noted
  | configuration =>
    refine ⟨quiet.congr rfl rfl rfl rfl rfl rfl, ?_⟩
    have again := ConfigurationLibrary.load_library_load w.library w.environment none
    have configuration := congrArg (Except.map LoadedConfiguration.configuration) again
    unfold surroundings
    exact congrArg (fun c => Surroundings.mk w.readSettings c w.desk.store.organizations
      w.timeline.now w.deadlineOffset w.standingOffset) configuration
  | invoke timeout =>
    have still : (w.invoke timeout).1 = w ∨ ∃ later,
        w.timeline.openInvocation timeout w.deadlineOffset = .ok later ∧
          (w.invoke timeout).1 = { w with timeline := later } := by
      unfold invoke
      cases opened : w.timeline.openInvocation timeout w.deadlineOffset with
      | error failure => exact .inl rfl
      | ok later => exact .inr ⟨later, rfl, rfl⟩
    show w.Stays (w.invoke timeout).1
    rcases still with eq | ⟨later, opened, eq⟩ <;> rw [eq]
    · exact ⟨quiet, rfl⟩
    · refine ⟨quiet.congr rfl rfl rfl rfl rfl rfl, ?_⟩
      unfold surroundings
      rw [now_openInvocation opened]
      rfl
  | _ => exact ⟨quiet.congr rfl rfl rfl rfl rfl rfl, rfl⟩

/-- A quiet world stays as it is, whatever prompt dialogue is run. -/
lemma IsQuiet.alone {α : Type} (quiet : w.IsQuiet) {d : Dialogue α} (prompt : d.IsPrompt) :
    w.Stays (World.alone d run w).world := by
  induction d generalizing run w with
  | done value => exact ⟨quiet, rfl⟩
  | ask query next ih =>
    have answered : w.Stays (w.answer run query).world := quiet.answer run query prompt.1
    obtain ⟨reply, replied⟩ : ∃ reply, (w.answer run query).progress.reply? = some reply :=
      exists_reply_answer prompt.1
    rw [alone_ask replied]
    exact answered.trans (ih reply answered.quiet (prompt.2 reply))

end World

end Rehearsal

end PolicyWarden
