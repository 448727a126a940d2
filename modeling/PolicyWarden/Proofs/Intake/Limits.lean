import Mathlib.Tactic.Common
import PolicyWarden.Proofs.Intake.Redelivery
import PolicyWarden.Proofs.Timeline.Ageing

/-!
# Limits that are accepted and limits that can be used

The settings accept every positive integer as a time limit, however large, while a timer takes no
more than `longestTimeout` milliseconds.  So settings that cannot be read are a problem of the
configuration, and that is what active findings are rejected with.  Among those that can be read
exactly the limits up to that bound open an invocation, and under a larger one active findings are
rejected for a reason that is no problem of this library (`accepted_limit_opens_iff`,
`accepted_limit_refused`).
-/

namespace PolicyWarden

namespace Settings

/-- A number that counts as a positive integer is one. -/
lemma exists_of_isPositiveInteger {number : Number} (positive : isPositiveInteger number = true) :
    ∃ n : Nat, 1 ≤ n ∧ number = .whole n := by
  cases number with
  | whole n =>
    have bound : 1 ≤ n := by simpa [isPositiveInteger] using positive
    exact ⟨n.toNat, by omega, by rw [Int.toNat_of_nonneg (by omega)]⟩
  | _ => cases positive

/-- One setting is a positive integer, or a problem that names the variable and its value. -/
lemma readOne_cases (environment : Environment) (name : Text) {fallback : Number}
    (positive : isPositiveInteger fallback = true) :
    (∃ value, readOne environment name fallback =
        .error (.ofProblem (.configuration (.setting name value)))) ∨
      ∃ n : Nat, 1 ≤ n ∧ readOne environment name fallback = .ok (.whole n) := by
  unfold readOne
  split
  · obtain ⟨n, bound, rfl⟩ := exists_of_isPositiveInteger positive
    exact .inr ⟨n, bound, rfl⟩
  · obtain ⟨n, bound, rfl⟩ := exists_of_isPositiveInteger positive
    exact .inr ⟨n, bound, rfl⟩
  · rename_i value _ _
    split
    · rename_i accepted
      obtain ⟨n, bound, eq⟩ := exists_of_isPositiveInteger accepted
      exact .inr ⟨n, bound, by rw [eq]⟩
    · exact .inl ⟨value, rfl⟩

/-- The settings have a positive integer for a time limit, or they are a problem that names a
variable and its value. -/
lemma read_cases (environment : Environment) :
    (∃ name value, read environment =
        .error (.ofProblem (.configuration (.setting name value)))) ∨
      ∃ (settings : Settings) (n : Nat), read environment = .ok settings ∧
        settings.timeout = .whole n ∧ 1 ≤ n := by
  unfold read
  have limit := readOne_cases environment timeoutVariable
    (show isPositiveInteger defaultTimeout from rfl)
  have attempts := readOne_cases environment writeAttemptsVariable
    (show isPositiveInteger defaultWriteAttempts from rfl)
  rcases limit with ⟨value, eq⟩ | ⟨n, bound, eq⟩
  · exact .inl ⟨timeoutVariable, value, by rw [eq]; rfl⟩
  · rcases attempts with ⟨value, other⟩ | ⟨m, -, other⟩
    · exact .inl ⟨writeAttemptsVariable, value, by rw [eq, other]; rfl⟩
    · exact .inr ⟨⟨.whole n, .whole m⟩, n, by rw [eq, other]; rfl, rfl, bound⟩

end Settings

/-- The refusal of a time limit beyond the range of timers. -/
def beyondTimers (limit : Number) : Failure :=
  outOfRange ">= 0 && <= 4294967295" limit

/-- A whole number of milliseconds beyond the range of timers is refused. -/
lemma readTimeout_beyond {n : Nat} (beyond : longestTimeout < n) :
    readTimeout (.whole n) = .error (beyondTimers (.whole n)) := by
  have outside : ¬ (n : Int) ≤ longestTimeout := by omega
  simp [readTimeout, Number.toInt?, beyondTimers, outside]

namespace Rehearsal

namespace World

variable {α : Type} {w : World} {run : Run}

/-- An invocation with a limit in milliseconds is opened exactly if the limit is one for timers, and
any other limit is refused. -/
lemma invoke_whole (w : World) (n : Nat) :
    ((w.invoke (.whole n)).2 = .ok () ↔ n ≤ longestTimeout) ∧
      (longestTimeout < n → (w.invoke (.whole n)).2 = .error (beyondTimers (.whole n))) := by
  unfold invoke Timeline.openInvocation
  by_cases inside : n ≤ longestTimeout
  · rw [readTimeout_whole inside]
    exact ⟨⟨fun _ => inside, fun _ => rfl⟩, fun beyond => absurd inside (by omega)⟩
  · rw [readTimeout_beyond (by omega)]
    exact ⟨⟨nofun, fun bound => absurd bound inside⟩, fun _ => rfl⟩

/-- A query that gets a reply leaves the value to what the dialogue goes on with. -/
lemma value?_alone_ask {query : Query} {next : query.Reply → Dialogue α} {reply : query.Reply}
    (replied : (w.answer run query).progress.reply? = some reply) :
    (alone (.ask query next) run w).value? =
      (alone (next reply) (w.answer run query).run (w.answer run query).world).value? := by
  rw [alone_ask replied]
  rfl

end World

end Rehearsal

namespace Intake

open Rehearsal Rehearsal.World

variable {w : World} {run : Run} {gateway : Gateway} {event : Event} {finding : Finding}
  {failure : Failure}

/-- An event whose processing fails for a reason that can be described is answered accordingly. -/
lemma value?_alone_handle {entry : Entry}
    (reached : (alone (process gateway event) run
      (w.retain .eventId event.recordedId)).value? = some (.error failure))
    (described : failureEntry event failure = .ok entry) :
    (alone (handle gateway event) run w).value? = some (answer failure) := by
  let noted := w.retain .eventId event.recordedId
  have awaited : (alone (process gateway event).awaited run noted).value? =
      some (.error failure) := by
    rw [Dialogue.awaited, alone_bind reached]
    exact value?_alone_ask rfl
  have wrapped (run : Run) (w : World) :
      (alone (wrapUp event (.error failure)) run w).value? = some (answer failure) := by
    rw [wrapUp, described]
    show (alone (.andThen (.record entry) (release (answer failure))) run w).value? = _
    rw [Dialogue.andThen, value?_alone_ask rfl, release, Dialogue.andThen, value?_alone_ask rfl]
    rfl
  rw [handle, Dialogue.andThen, value?_alone_ask rfl]
  show (alone ((process gateway event).awaited.bind (wrapUp event)) run noted).value? = _
  rw [alone_bind awaited]
  exact wrapped _ _

/-- A plain fault is recorded under its name, and the event may be delivered again. -/
lemma failureEntry_plainFault (event : Event) (name message : Text) :
    failureEntry event (.plainFault name message) =
      .ok (.failed ⟨name, Failure.shortened message, true, none, none, none⟩) := by
  have uncaused : (Failure.plainFault name message).causeSummary = .ok none := if_pos rfl
  show (Failure.plainFault name message).describe.map Entry.failed = _
  rw [Failure.describe, uncaused]
  rfl

/-- What is wrong with the configuration can be recorded. -/
lemma exists_failureEntry_configuration (event : Event) (defect : ConfigurationDefect) :
    ∃ entry, failureEntry event (.ofProblem (.configuration defect)) = .ok entry := by
  have uncaused : (Failure.ofProblem (.configuration defect)).causeSummary = .ok none := if_pos rfl
  refine ⟨.failed ((Failure.ofProblem (.configuration defect)).describeWith
    (Failure.shortened defect.message) none), ?_⟩
  show (Failure.ofProblem (.configuration defect)).describe.map Entry.failed = _
  rw [Failure.describe, uncaused]
  rfl

/-- An active finding is remediated once it has been noted. -/
lemma value?_alone_process (found : Intake.finding event = .ok finding)
    (active : finding.state = .active) :
    (alone (process gateway event) run w).value? =
      (alone (remediate gateway finding) run
        ((w.retain .findingName (.text finding.name)).recordAll [.received finding])).value? := by
  have following : process gateway event = follow gateway finding := by rw [process, found]
  rw [following, follow, active, Dialogue.andThen, value?_alone_ask rfl, Dialogue.andThen,
    value?_alone_ask rfl]
  rfl

/-- A remediation fails with the settings. -/
lemma value?_alone_remediate_of_settings (failed : w.readSettings = .error failure) :
    (alone (remediate gateway finding) run w).value? = some (.error failure) := by
  rw [remediate, Attempt.next, Dialogue.query, Dialogue.bind_ask, value?_alone_ask rfl]
  show (alone (Dialogue.bind (.done w.readSettings) _) run w).value? = _
  rw [failed]
  rfl

/-- A remediation fails if its invocation cannot be opened. -/
lemma value?_alone_remediate_of_invoke {settings : Settings} {loaded : LoadedConfiguration}
    (settled : w.readSettings = .ok settings)
    (configured : (w.library.load w.environment none).result = .ok loaded)
    (refused : ((w.loadConfiguration none).1.invoke settings.timeout).2 = .error failure) :
    (alone (remediate gateway finding) run w).value? = some (.error failure) := by
  have loads : (w.loadConfiguration none).2 = .ok loaded := configured
  rw [remediate, Attempt.next, Dialogue.query, Dialogue.bind_ask, value?_alone_ask rfl]
  show (alone (Dialogue.bind (.done w.readSettings) _) run w).value? = _
  rw [settled]
  show (alone (Attempt.next (.query .configuration) _) run w).value? = _
  rw [Attempt.next, Dialogue.query, Dialogue.bind_ask, value?_alone_ask rfl]
  show (alone (Dialogue.bind (.done ((w.loadConfiguration none).2.map _)) _) run
    (w.loadConfiguration none).1).value? = _
  rw [loads]
  show (alone (Attempt.next (.query (.invoke settings.timeout)) _) run
    (w.loadConfiguration none).1).value? = _
  rw [Attempt.next, Dialogue.query, Dialogue.bind_ask, value?_alone_ask rfl]
  show (alone (Dialogue.bind (.done ((w.loadConfiguration none).1.invoke settings.timeout).2) _)
    _ _).value? = _
  rw [refused]
  rfl

end Intake

namespace Rehearsal

namespace World

variable {w : World} {event : Event} {finding : Finding} {failure : Failure}

/-- The world in which an active finding is remediated: the event and the finding were noted. -/
def notedFor (w : World) (event : Event) (finding : Finding) : World :=
  (({ w with runs := w.runs + 1 }.retain .eventId event.recordedId).retain .findingName
    (.text finding.name)).recordAll [.received finding]

/-- Whatever active finding an event carries, its handling is rejected with the failure. -/
def RejectsActive (w : World) (failure : Failure) : Prop :=
  ∀ event finding, Intake.finding event = .ok finding → finding.state = .active →
    (w.step (.event (.ok event))).2 = .reported (.error failure)

/-- The handling of an event in a calm world is rejected as the remediation of its active finding
fails. -/
lemma step_event_of_remediate (calm : w.IsCalm) (found : Intake.finding event = .ok finding)
    (active : finding.state = .active) {entry : Entry}
    (described : Intake.failureEntry event failure = .ok entry)
    (rejected : Intake.answer failure = .error failure)
    (failed : (alone (Intake.remediate w.gateway finding) { w.newRun with number := w.runs }
      (w.notedFor event finding)).value? = some (.error failure)) :
    (w.step (.event (.ok event))).2 = .reported (.error failure) := by
  have processed := (Intake.value?_alone_process found active).trans failed
  have handled : (w.solo (Intake.receive w.gateway (.ok event))).value? =
      some (Intake.answer failure) := Intake.value?_alone_handle processed described
  show (w.attempt (Intake.receive w.gateway (.ok event)) fun _ => .nothing).2 = _
  rw [attempt_eq_solo calm handled, rejected]
  rfl

/-- Without settings of its own a world reads those of its environment, whatever was noted. -/
lemma readSettings_notedFor (own : w.settings = none) :
    (w.notedFor event finding).readSettings = Settings.read w.environment := by
  unfold readSettings
  rw [show (w.notedFor event finding).settings = none from own]
  rfl

/-- Settings that cannot be read reject active findings. -/
lemma rejectsActive_of_setting {name value : Text} (calm : w.IsCalm) (own : w.settings = none)
    (bad : Settings.read w.environment =
      .error (.ofProblem (.configuration (.setting name value)))) :
    w.RejectsActive (.ofProblem (.configuration (.setting name value))) := by
  intro event finding found active
  obtain ⟨entry, described⟩ := Intake.exists_failureEntry_configuration event (.setting name value)
  refine step_event_of_remediate calm found active described rfl ?_
  exact Intake.value?_alone_remediate_of_settings ((readSettings_notedFor own).trans bad)

/-- A limit beyond the range of timers rejects active findings, once the configuration is loaded. -/
lemma rejectsActive_of_beyond {settings : Settings} {n : Nat} {loaded : LoadedConfiguration}
    (calm : w.IsCalm) (own : w.settings = none)
    (good : Settings.read w.environment = .ok settings) (eq : settings.timeout = .whole n)
    (beyond : longestTimeout < n)
    (configured : (w.library.load w.environment none).result = .ok loaded) :
    w.RejectsActive (beyondTimers (.whole n)) := by
  intro event finding found active
  have refused : (((w.notedFor event finding).loadConfiguration none).1.invoke
      settings.timeout).2 = .error (beyondTimers (.whole n)) := by
    rw [eq]
    exact (invoke_whole _ n).2 beyond
  refine step_event_of_remediate calm found active (Intake.failureEntry_plainFault event _ _) rfl ?_
  exact Intake.value?_alone_remediate_of_invoke ((readSettings_notedFor own).trans good)
    configured refused

/-- **Accepted limits and usable limits.**  Settings that cannot be read name a variable and its
value, which is a problem of the configuration, and the handling of active findings is rejected with
it.  Settings that can be read have a positive number of milliseconds for a limit, and an invocation
is opened for it exactly if timers can be set so far ahead.  Any larger limit is refused for a
reason that is no problem of this library, and that is what the handling of active findings is
rejected with. -/
theorem accepted_limit_opens_iff (w : World) :
    (∃ name value, Settings.read w.environment =
        .error (.ofProblem (.configuration (.setting name value))) ∧
      (w.IsCalm → w.settings = none →
        w.RejectsActive (.ofProblem (.configuration (.setting name value))))) ∨
      ∃ (settings : Settings) (n : Nat), Settings.read w.environment = .ok settings ∧
        settings.timeout = .whole n ∧ 1 ≤ n ∧
        ((w.invoke settings.timeout).2 = .ok () ↔ n ≤ longestTimeout) ∧
        (longestTimeout < n →
          (w.invoke settings.timeout).2 = .error (beyondTimers settings.timeout) ∧
          (beyondTimers settings.timeout).problem? = none ∧
          (w.IsCalm → w.settings = none → ∀ loaded,
            (w.library.load w.environment none).result = .ok loaded →
            w.RejectsActive (beyondTimers settings.timeout))) := by
  rcases Settings.read_cases w.environment with ⟨name, value, bad⟩ | ⟨settings, n, good, eq, bound⟩
  · exact .inl ⟨name, value, bad, fun calm own => rejectsActive_of_setting calm own bad⟩
  · refine .inr ⟨settings, n, good, eq, bound, ?_⟩
    refine ⟨by rw [eq]; exact (w.invoke_whole n).1, fun beyond => ?_⟩
    rw [eq]
    refine ⟨(w.invoke_whole n).2 beyond, rfl, fun calm own loaded configured => ?_⟩
    exact rejectsActive_of_beyond calm own good eq beyond configured

/-! ### A limit of fifty-eight days -/

/-- An environment with a limit of five thousand million milliseconds. -/
def patientEnvironment : Environment :=
  [(Settings.timeoutVariable, "5000000000")]

/-- A finding of the organization `1` is not remediated under such a limit: its handling fails. -/
theorem accepted_limit_opens_iff_patient :
    let w : World := { plainWorld with environment := patientEnvironment }
    let limit : Number := .whole 5000000000
    w.IsCalm ∧ w.settings = none ∧
      (∃ finding, Intake.finding activeEvent = .ok finding ∧ finding.state = .active) ∧
      (∃ loaded, (w.library.load w.environment none).result = .ok loaded) ∧
      longestTimeout < 5000000000 ∧ (w.invoke limit).2 = .error (beyondTimers limit) ∧
      (w.step (.event (.ok activeEvent))).2 = .reported (.error (beyondTimers limit)) := by
  intro w limit
  have calm : w.IsCalm := ⟨rfl, rfl⟩
  have read : Settings.read w.environment = .ok ⟨limit, .whole 3⟩ := by decide +kernel
  obtain ⟨finding, found, active⟩ : ∃ finding, Intake.finding activeEvent = .ok finding ∧
      finding.state = .active := by
    refine ⟨⟨"f", "1", nonOrgMemberCategory, .active, "r", [], "t", "t"⟩, ?_⟩
    decide +kernel
  obtain ⟨loaded, configured⟩ : ∃ loaded,
      (w.library.load w.environment none).result = .ok loaded :=
    ⟨⟨⟨[], none⟩, 0⟩, by decide +kernel⟩
  have beyond : longestTimeout < 5000000000 := by decide
  rcases accepted_limit_opens_iff w with
    ⟨name, value, bad, -⟩ | ⟨settings, n, good, eq, -, -, law⟩
  · rw [read] at bad
    cases bad
  · rw [read] at good
    cases good
    have limited : n = 5000000000 := by
      have value : (5000000000 : Int) = n := Number.whole.inj eq
      omega
    obtain ⟨refused, -, handled⟩ := law (by omega)
    exact ⟨calm, rfl, ⟨finding, found, active⟩, ⟨loaded, configured⟩, beyond, refused,
      handled calm rfl _ configured _ _ found active⟩

/-- The limit is accepted, and then it is refused for a reason that is no problem. -/
theorem accepted_limit_refused :
    let w : World := { environment := patientEnvironment }
    ∃ settings failure, Settings.read w.environment = .ok settings ∧
      (w.invoke settings.timeout).2 = .error failure ∧ failure.problem? = none := by
  refine ⟨⟨.whole 5000000000, .whole 3⟩, beyondTimers (.whole 5000000000), ?_⟩
  decide +kernel

end World

end Rehearsal

end PolicyWarden
