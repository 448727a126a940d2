import Mathlib.Tactic.Common
import PolicyWarden.Proofs.Dialogue.Course
import PolicyWarden.Proofs.Dialogue.Rules
import PolicyWarden.Proofs.Gateway.Substitution
import PolicyWarden.Proofs.Intake.Redelivery

/-!
# Acknowledging an event or asking for it again

A failure can come from every step of the handling of an event: from its data, from the settings,
the configuration or the opening of the invocation, and from anything that the gateway does.
`Intake.Meets` lists what can come of an event before it is answered, and `Intake.Answers` says what
is answered then: it depends on the kind of the failure and not on where the failure comes from.

A failure is recorded with a text for itself and one for its cause.  Where there is no such text,
nothing is recorded, and what is handed back is not the failure but that it has no text.
-/

namespace PolicyWarden

/-! ### Failures -/

namespace Failure

/-- The finding belongs to another remediation. -/
def IsUnsupported (f : Failure) : Prop :=
  ∃ category expected, f.problem? = some (.unsupportedCategory category expected)

/-- The notification cannot be used. -/
def IsMalformed (f : Failure) : Prop :=
  ∃ defect, f.problem? = some (.malformedPayload defect)

/-- There is a text for the failure and one for its cause. -/
def IsDescribable (f : Failure) : Prop :=
  f.message?.isSome ∧ f.cause.message?.isSome

variable {f : Failure}

/-- A notification that cannot be used says nothing about other remediations. -/
lemma IsMalformed.not_isUnsupported (malformed : f.IsMalformed) : ¬ f.IsUnsupported := by
  obtain ⟨defect, malformed⟩ := malformed
  rintro ⟨category, expected, unsupported⟩
  rw [malformed] at unsupported
  cases unsupported

/-- A failure with texts has a description. -/
lemma IsDescribable.exists_describe (describable : f.IsDescribable) :
    ∃ description, f.describe = .ok description := by
  obtain ⟨hasText, causeHasText⟩ := describable
  obtain ⟨text, message⟩ := Option.isSome_iff_exists.mp hasText
  obtain ⟨causeText, causeMessage⟩ := Option.isSome_iff_exists.mp causeHasText
  have summary : f.summary = .ok (shortened text) := by rw [Failure.summary, message]
  have causeSummary : ∃ cause, f.causeSummary = .ok cause := by
    rw [Failure.causeSummary]
    split
    · exact ⟨none, rfl⟩
    · rw [Failure.summary, causeMessage]
      exact ⟨some (shortened causeText), rfl⟩
  obtain ⟨cause, causeSummary⟩ := causeSummary
  rw [describe, summary, causeSummary]
  exact ⟨_, rfl⟩

/-- Describing a failure without a text, or with a cause without one, fails in turn. -/
lemma describe_eq_unprintable (undescribable : ¬ f.IsDescribable) :
    f.describe = .error unprintable := by
  cases message : f.message? with
  | none =>
    have summary : f.summary = .error unprintable := by rw [Failure.summary, message]
    rw [describe, summary]
  | some text =>
    have summary : f.summary = .ok (shortened text) := by rw [Failure.summary, message]
    have causeMessage : f.cause.message? = none := by
      by_contra hasText
      exact undescribable ⟨Option.isSome_iff_exists.mpr ⟨text, message⟩,
        Option.isSome_iff_ne_none.mpr hasText⟩
    have caused : f.cause ≠ .absent := by
      intro absent
      rw [absent] at causeMessage
      cases causeMessage
    have causeSummary : f.causeSummary = .error unprintable := by
      rw [Failure.causeSummary, if_neg caused, Failure.summary, causeMessage]
      rfl
    rw [describe, summary, causeSummary]

end Failure

/-! ### Errors in the journal -/

/-- The query records an error. -/
def Query.recordsError : Query → Bool
  | .record entry => entry.level = .error
  | _ => false

/-- The errors that are recorded in a history. -/
def History.errors (h : History) : List Entry :=
  h.filterMap fun exchange =>
    match exchange.query with
    | .record entry => if entry.level = .error then some entry else none
    | _ => none

@[simp]
lemma History.errors_append (h k : History) : (h ++ k).errors = h.errors ++ k.errors :=
  List.filterMap_append

namespace Intake

variable {event : Event} {h : History}

/-- No error is recorded. -/
def recordsNoError : Rule :=
  fun _ query => query.recordsError = false

/-- Where no error may be recorded, none is. -/
lemma errors_eq_nil_of_obeys {α : Type} {d : Dialogue α} (obeys : d.Obeys recordsNoError)
    {value : α} (ends : d.Ends h value) : h.errors = [] := by
  have kept : d.Ensures (fun _ _ => True) (fun k _ => History.errors k = []) [] := by
    refine obeys.ensures (fun k query reply none quiet => ?_) (fun _ _ _ _ => trivial) rfl
    rw [History.errors_append, none]
    cases query with
    | record entry =>
      have level : entry.level ≠ .error := of_decide_eq_false quiet
      simp [History.errors, level]
    | _ => rfl
  exact ends.ends_of_ensures kept

/-- Processing an event records no error. -/
lemma obeys_process (event : Event) : (process .direct event).Obeys recordsNoError := by
  have lenient : recordsNoError.IsLenient :=
    ⟨fun _ _ quiet => decide_eq_false quiet, fun _ => rfl, fun _ => rfl⟩
  have direct : Gateway.direct.Obeys recordsNoError :=
    Gateway.obeys_direct (fun _ _ => rfl) (fun _ _ => rfl) fun _ _ _ _ => rfl
  rw [process]
  cases Intake.finding event with
  | error failure => exact Dialogue.obeys_done _
  | ok finding =>
    refine Dialogue.obeys_ask (fun _ => rfl) fun _ => ?_
    refine Dialogue.obeys_ask (fun _ => rfl) fun _ => ?_
    cases finding.state with
    | inactive => exact Dialogue.obeys_ask (fun _ => rfl) fun _ => Dialogue.obeys_done _
    | active =>
      exact obeys_remediate lenient direct (fun _ => rfl) (fun _ => rfl) (fun _ _ => rfl) finding

/-! ### What comes of an event -/

/-- What comes of an event. -/
inductive Fate where
  /-- The remediation came to its end. -/
  | finished (outcome : Outcome)
  /-- The finding is no longer active. -/
  | inactive
  /-- Some step failed. -/
  | failed (failure : Failure)

/-- The result of processing an event with some fate. -/
def Fate.result : Fate → Except Failure Unit
  | finished _ | inactive => .ok ()
  | failed failure => .error failure

/-- How the processing of a finding begins. -/
def noted (finding : Finding) : History :=
  [⟨.retain .findingName (.text finding.name), ()⟩, ⟨.record (.received finding), ()⟩]

/-- The history in which the settings and the configuration became known. -/
def prepared (settings : Settings) (configuration : Configuration) : History :=
  [⟨.settings, .ok settings⟩, ⟨.configuration, .ok configuration⟩]

/-- The plan of a remediation for a finding. -/
abbrev planFor (finding : Finding) (settings : Settings) (configuration : Configuration) : Plan :=
  ⟨configuration, finding.organizationId, some settings.writeAttempts⟩

/-- `Meets event h fate` says that the fate comes of the event in the history of its processing; a
failure may come from each of the steps that were reached. -/
inductive Meets (event : Event) : History → Fate → Prop
  | unread {failure : Failure} (unread : Intake.finding event = .error failure) :
      Meets event [] (.failed failure)
  | inactive {finding : Finding} (carried : Intake.finding event = .ok finding)
      (state : finding.state = .inactive) :
      Meets event (noted finding ++ [⟨.record .inactive, ()⟩]) .inactive
  | unsettled {finding : Finding} {failure : Failure}
      (carried : Intake.finding event = .ok finding) (state : finding.state = .active) :
      Meets event (noted finding ++ [⟨.settings, .error failure⟩]) (.failed failure)
  | unconfigured {finding : Finding} {settings : Settings} {failure : Failure}
      (carried : Intake.finding event = .ok finding) (state : finding.state = .active) :
      Meets event (noted finding ++ [⟨.settings, .ok settings⟩, ⟨.configuration, .error failure⟩])
        (.failed failure)
  | unopened {finding : Finding} {settings : Settings} {configuration : Configuration}
      {failure : Failure} (carried : Intake.finding event = .ok finding)
      (state : finding.state = .active) :
      Meets event (noted finding ++ prepared settings configuration ++
        [⟨.invoke settings.timeout, .error failure⟩]) (.failed failure)
  | lost {finding : Finding} {settings : Settings} {configuration : Configuration}
      {failure : Failure} {h : History} (carried : Intake.finding event = .ok finding)
      (state : finding.state = .active)
      (executed : (Remediation.execute .direct (planFor finding settings configuration)).Ends h
        (.error failure)) :
      Meets event (noted finding ++ prepared settings configuration ++
        [⟨.invoke settings.timeout, .ok ()⟩] ++ h ++ [⟨.pause, ()⟩]) (.failed failure)
  | finished {finding : Finding} {settings : Settings} {configuration : Configuration}
      {outcome : Outcome} {h : History} (carried : Intake.finding event = .ok finding)
      (state : finding.state = .active)
      (executed : (Remediation.execute .direct (planFor finding settings configuration)).Ends h
        (.ok outcome)) :
      Meets event (noted finding ++ prepared settings configuration ++
        [⟨.invoke settings.timeout, .ok ()⟩] ++ h ++
          [⟨.pause, ()⟩, ⟨.record (.finished outcome), ()⟩]) (.finished outcome)

/-- What a remediation under an open invocation comes to. -/
lemma exists_meets_of_execute {finding : Finding} {settings : Settings}
    {configuration : Configuration} {result : Except Failure Unit}
    (carried : Intake.finding event = .ok finding) (state : finding.state = .active)
    (ends : (Attempt.next (Remediation.execute .direct
      (planFor finding settings configuration)).awaited conclude).Ends h result) :
    ∃ fate, Meets event (noted finding ++ prepared settings configuration ++
      [⟨.invoke settings.timeout, .ok ()⟩] ++ h) fate ∧ result = fate.result := by
  rcases Attempt.ends_next_iff.mp ends with
    ⟨failure, lost, rfl⟩ | ⟨past, rest, outcome, rfl, awaited, concluded⟩
  · obtain ⟨past, rfl, executed⟩ := Dialogue.ends_awaited_iff.mp lost
    rw [← List.append_assoc]
    exact ⟨_, .lost carried state executed, rfl⟩
  · obtain ⟨past, rfl, executed⟩ := Dialogue.ends_awaited_iff.mp awaited
    obtain ⟨_, _, rfl, done⟩ := Dialogue.ends_ask_iff.mp concluded
    obtain ⟨rfl, rfl⟩ := Dialogue.ends_done_iff.mp done
    rw [List.append_assoc past, ← List.append_assoc _ past]
    exact ⟨_, .finished carried state executed, rfl⟩

/-- What the remediation of an active finding comes to. -/
lemma exists_meets_of_remediate {finding : Finding} {result : Except Failure Unit}
    (carried : Intake.finding event = .ok finding) (state : finding.state = .active)
    (ends : (remediate .direct finding).Ends h result) :
    ∃ fate, Meets event (noted finding ++ h) fate ∧ result = fate.result := by
  rcases Attempt.ends_next_iff.mp ends with
    ⟨failure, refused, rfl⟩ | ⟨past, rest, settings, rfl, settled, configures⟩
  · obtain rfl := Dialogue.ends_query_iff.mp refused
    exact ⟨_, .unsettled carried state, rfl⟩
  obtain rfl := Dialogue.ends_query_iff.mp settled
  rcases Attempt.ends_next_iff.mp configures with
    ⟨failure, refused, rfl⟩ | ⟨past, rest, configuration, rfl, configured, opens⟩
  · obtain rfl := Dialogue.ends_query_iff.mp refused
    exact ⟨_, .unconfigured carried state, rfl⟩
  obtain rfl := Dialogue.ends_query_iff.mp configured
  rcases Attempt.ends_next_iff.mp opens with
    ⟨failure, refused, rfl⟩ | ⟨past, rest, opened, rfl, invoked, executes⟩
  · obtain rfl := Dialogue.ends_query_iff.mp refused
    exact ⟨_, .unopened carried state, rfl⟩
  obtain rfl := Dialogue.ends_query_iff.mp invoked
  obtain ⟨fate, meets, rfl⟩ := exists_meets_of_execute carried state executes
  exact ⟨fate, meets, rfl⟩

/-- Whatever the processing of an event ends with is a fate that the event can meet. -/
lemma exists_meets_of_process {result : Except Failure Unit}
    (ends : (process .direct event).Ends h result) :
    ∃ fate, Meets event h fate ∧ result = fate.result := by
  rw [process] at ends
  cases carried : Intake.finding event with
  | error failure =>
    rw [carried] at ends
    obtain ⟨rfl, rfl⟩ := Dialogue.ends_done_iff.mp ends
    exact ⟨_, .unread carried, rfl⟩
  | ok finding =>
    rw [carried] at ends
    obtain ⟨_, rest, rfl, records⟩ := Dialogue.ends_ask_iff.mp ends
    obtain ⟨_, rest, rfl, follows⟩ := Dialogue.ends_ask_iff.mp records
    cases state : finding.state with
    | active =>
      rw [state] at follows
      exact exists_meets_of_remediate carried state follows
    | inactive =>
      rw [state] at follows
      obtain ⟨_, _, rfl, done⟩ := Dialogue.ends_ask_iff.mp follows
      obtain ⟨rfl, rfl⟩ := Dialogue.ends_done_iff.mp done
      exact ⟨_, .inactive carried state, rfl⟩

/-! ### What is answered -/

/-- What is answered to an event with some fate, and which errors are recorded. -/
structure Answers (event : Event) (fate : Fate) (errors : List Entry)
    (result : Except Failure Unit) : Prop where
  /-- The event is acknowledged if it was dealt with, and if its failure is final and can be
  recorded. -/
  acknowledged : result = .ok () ↔
    (∃ outcome, fate = .finished outcome) ∨ fate = .inactive ∨
      ∃ f, fate = .failed f ∧ (f.IsUnsupported ∨ f.IsMalformed ∧ f.IsDescribable)
  /-- Any other failure that can be recorded is handed back as it is. -/
  returned : ∀ f, fate = .failed f → ¬ f.IsUnsupported → ¬ f.IsMalformed → f.IsDescribable →
    result = .error f
  /-- In place of a failure that would have to be recorded but cannot be, it is handed back that
  there was no text. -/
  undescribed : ∀ f, fate = .failed f → ¬ f.IsUnsupported → ¬ f.IsDescribable →
    result = .error .unprintable
  /-- A failure that can be recorded is so once, with its description. -/
  recorded : ∀ f description, fate = .failed f → f.describe = .ok description →
    (f.IsMalformed → errors = [.malformed description event.messageId]) ∧
      (¬ f.IsUnsupported → ¬ f.IsMalformed → errors = [.failed description])
  /-- Nothing else is recorded as an error. -/
  silent : (∀ f, fate = .failed f → f.IsUnsupported ∨ ¬ f.IsDescribable) → errors = []

section Entries

variable {f : Failure}

/-- A finding that belongs to another remediation is no error. -/
lemma failureEntry_of_isUnsupported (event : Event) (unsupported : f.IsUnsupported) :
    ∃ category expected, failureEntry event f = .ok (.unsupported category expected) := by
  obtain ⟨category, expected, problem⟩ := unsupported
  exact ⟨category, expected, by rw [failureEntry, problem]⟩

/-- A notification that cannot be used is recorded with its message. -/
lemma failureEntry_of_isMalformed (event : Event) (malformed : f.IsMalformed) :
    failureEntry event f =
      f.describe.map fun description => .malformed description event.messageId := by
  obtain ⟨defect, problem⟩ := malformed
  rw [failureEntry, problem]

/-- Any other failure is recorded as such. -/
lemma failureEntry_of_other (event : Event) (supported : ¬ f.IsUnsupported)
    (wellFormed : ¬ f.IsMalformed) :
    failureEntry event f = f.describe.map .failed := by
  unfold failureEntry
  split
  · rename_i problem
    exact absurd ⟨_, _, problem⟩ supported
  · rename_i problem
    exact absurd ⟨_, problem⟩ wellFormed
  · rfl

/-- A failure without a text has no entry, unless it needs none. -/
lemma failureEntry_eq_unprintable (event : Event) (supported : ¬ f.IsUnsupported)
    (undescribable : ¬ f.IsDescribable) : failureEntry event f = .error .unprintable := by
  by_cases malformed : f.IsMalformed
  · rw [failureEntry_of_isMalformed event malformed, Failure.describe_eq_unprintable undescribable]
    rfl
  · rw [failureEntry_of_other event supported malformed, Failure.describe_eq_unprintable undescribable]
    rfl

/-- The failures of two kinds are final. -/
lemma isFinal_iff : isFinal f = true ↔ f.IsUnsupported ∨ f.IsMalformed := by
  unfold isFinal
  split
  · rename_i problem
    exact iff_of_true rfl (.inl ⟨_, _, problem⟩)
  · rename_i problem
    exact iff_of_true rfl (.inr ⟨_, problem⟩)
  · rename_i supported wellFormed
    refine iff_of_false Bool.false_ne_true ?_
    rintro (⟨category, expected, problem⟩ | ⟨defect, problem⟩)
    · exact supported category expected problem
    · exact wellFormed defect problem

/-- A final failure is acknowledged. -/
lemma answer_eq_ok (final : f.IsUnsupported ∨ f.IsMalformed) : answer f = .ok () :=
  if_pos (isFinal_iff.mpr final)

/-- Any other failure is handed back. -/
lemma answer_eq_error (supported : ¬ f.IsUnsupported) (wellFormed : ¬ f.IsMalformed) :
    answer f = .error f :=
  if_neg fun final => (isFinal_iff.mp final).elim supported wellFormed

end Entries

/-- Giving the keys back is all that happens on a release. -/
lemma ends_release_iff {result answered : Except Failure Unit} :
    (release result).Ends h answered ↔ h = [⟨.release keys, ()⟩] ∧ answered = result := by
  rw [release, Dialogue.andThen, Dialogue.ends_ask_iff]
  constructor
  · rintro ⟨_, _, rfl, done⟩
    obtain ⟨rfl, rfl⟩ := Dialogue.ends_done_iff.mp done
    exact ⟨rfl, rfl⟩
  · rintro ⟨rfl, rfl⟩
    exact ⟨(), [], rfl, .here _⟩

/-- A failure with an entry is recorded and answered. -/
lemma ends_wrapUp_of_entry {f : Failure} {entry : Entry} {result : Except Failure Unit}
    (described : failureEntry event f = .ok entry)
    (ends : (wrapUp event (.error f)).Ends h result) :
    h = [⟨.record entry, ()⟩, ⟨.release keys, ()⟩] ∧ result = answer f := by
  rw [wrapUp, described] at ends
  obtain ⟨_, rest, rfl, released⟩ := Dialogue.ends_ask_iff.mp ends
  obtain ⟨rfl, rfl⟩ := ends_release_iff.mp released
  exact ⟨rfl, rfl⟩

/-- An event that was dealt with is acknowledged. -/
lemma answers_of_dealt {fate : Fate}
    (dealt : (∃ outcome, fate = .finished outcome) ∨ fate = .inactive) :
    Answers event fate [] (.ok ()) := by
  have unfailed (f : Failure) : fate ≠ .failed f := by
    rintro rfl
    rcases dealt with ⟨outcome, eq⟩ | eq <;> cases eq
  refine ⟨iff_of_true rfl ?_, fun f eq => absurd eq (unfailed f), fun f eq => absurd eq (unfailed f),
    fun f _ eq => absurd eq (unfailed f), fun _ => rfl⟩
  rcases dealt with finished | inactive
  · exact .inl finished
  · exact .inr (.inl inactive)

/-- A finding of another remediation is acknowledged without an error. -/
lemma answers_of_isUnsupported {f : Failure} (unsupported : f.IsUnsupported) :
    Answers event (.failed f) [] (.ok ()) where
  acknowledged := iff_of_true rfl (.inr (.inr ⟨f, rfl, .inl unsupported⟩))
  returned := by
    rintro _ ⟨⟩ supported
    exact absurd unsupported supported
  undescribed := by
    rintro _ ⟨⟩ supported
    exact absurd unsupported supported
  recorded := by
    rintro _ description ⟨⟩ -
    exact ⟨fun malformed => absurd unsupported malformed.not_isUnsupported,
      fun supported => absurd unsupported supported⟩
  silent _ := rfl

/-- A notification that cannot be used is recorded and acknowledged. -/
lemma answers_of_isMalformed {f : Failure} {description : Failure.Description}
    (malformed : f.IsMalformed) (describable : f.IsDescribable)
    (described : f.describe = .ok description) :
    Answers event (.failed f) [.malformed description event.messageId] (.ok ()) where
  acknowledged := iff_of_true rfl (.inr (.inr ⟨f, rfl, .inr ⟨malformed, describable⟩⟩))
  returned := by
    rintro _ ⟨⟩ - wellFormed
    exact absurd malformed wellFormed
  undescribed := by
    rintro _ ⟨⟩ - undescribable
    exact absurd describable undescribable
  recorded := by
    rintro _ other ⟨⟩ eq
    obtain rfl := Except.ok.inj (described.symm.trans eq)
    exact ⟨fun _ => rfl, fun _ wellFormed => absurd malformed wellFormed⟩
  silent unrecorded := by
    rcases unrecorded f rfl with unsupported | undescribable
    · exact absurd unsupported malformed.not_isUnsupported
    · exact absurd describable undescribable

/-- A failure that is not final is recorded and handed back. -/
lemma answers_of_other {f : Failure} {description : Failure.Description}
    (supported : ¬ f.IsUnsupported) (wellFormed : ¬ f.IsMalformed)
    (describable : f.IsDescribable) (described : f.describe = .ok description) :
    Answers event (.failed f) [.failed description] (.error f) where
  acknowledged := by
    refine iff_of_false nofun ?_
    rintro (⟨outcome, ⟨⟩⟩ | ⟨⟨⟩⟩ | ⟨_, ⟨⟩, unsupported | ⟨malformed, -⟩⟩)
    · exact supported unsupported
    · exact wellFormed malformed
  returned := by
    rintro _ ⟨⟩ - - -
    rfl
  undescribed := by
    rintro _ ⟨⟩ - undescribable
    exact absurd describable undescribable
  recorded := by
    rintro _ other ⟨⟩ eq
    obtain rfl := Except.ok.inj (described.symm.trans eq)
    exact ⟨fun malformed => absurd malformed wellFormed, fun _ _ => rfl⟩
  silent unrecorded := by
    rcases unrecorded f rfl with unsupported | undescribable
    · exact absurd unsupported supported
    · exact absurd describable undescribable

/-- In place of a failure without a text it is handed back that there is none. -/
lemma answers_of_undescribable {f : Failure} (supported : ¬ f.IsUnsupported)
    (undescribable : ¬ f.IsDescribable) :
    Answers event (.failed f) [] (.error .unprintable) where
  acknowledged := by
    refine iff_of_false nofun ?_
    rintro (⟨outcome, ⟨⟩⟩ | ⟨⟨⟩⟩ | ⟨_, ⟨⟩, unsupported | ⟨-, describable⟩⟩)
    · exact supported unsupported
    · exact undescribable describable
  returned := by
    rintro _ ⟨⟩ - - describable
    exact absurd describable undescribable
  undescribed := by
    rintro _ ⟨⟩ - -
    rfl
  recorded := by
    rintro _ description ⟨⟩ eq
    rw [Failure.describe_eq_unprintable undescribable] at eq
    cases eq
  silent _ := rfl

/-- A failure is answered in view of its kind and of its texts. -/
lemma answers_of_failed {f : Failure} {result : Except Failure Unit}
    (ends : (wrapUp event (.error f)).Ends h result) :
    Answers event (.failed f) h.errors result := by
  by_cases unsupported : f.IsUnsupported
  · obtain ⟨category, expected, entry⟩ := failureEntry_of_isUnsupported event unsupported
    obtain ⟨rfl, rfl⟩ := ends_wrapUp_of_entry entry ends
    rw [answer_eq_ok (.inl unsupported)]
    exact answers_of_isUnsupported unsupported
  by_cases describable : f.IsDescribable
  · obtain ⟨description, described⟩ := describable.exists_describe
    by_cases malformed : f.IsMalformed
    · have entry := failureEntry_of_isMalformed event malformed
      rw [described] at entry
      obtain ⟨rfl, rfl⟩ := ends_wrapUp_of_entry entry ends
      rw [answer_eq_ok (.inr malformed)]
      exact answers_of_isMalformed malformed describable described
    · have entry := failureEntry_of_other event unsupported malformed
      rw [described] at entry
      obtain ⟨rfl, rfl⟩ := ends_wrapUp_of_entry entry ends
      rw [answer_eq_error unsupported malformed]
      exact answers_of_other unsupported malformed describable described
  · rw [wrapUp, failureEntry_eq_unprintable event unsupported describable] at ends
    obtain ⟨rfl, rfl⟩ := ends_release_iff.mp ends
    exact answers_of_undescribable unsupported describable

/-- Whatever comes of an event is answered in view of it. -/
lemma answers_of_wrapUp {fate : Fate} {result : Except Failure Unit}
    (ends : (wrapUp event fate.result).Ends h result) : Answers event fate h.errors result := by
  cases fate with
  | failed f => exact answers_of_failed ends
  | finished outcome =>
    obtain ⟨rfl, rfl⟩ := ends_release_iff.mp ends
    exact answers_of_dealt (.inl ⟨outcome, rfl⟩)
  | inactive =>
    obtain ⟨rfl, rfl⟩ := ends_release_iff.mp ends
    exact answers_of_dealt (.inr rfl)

/-- **Acknowledgement.**  Handling an event over any gateway is handling it over the direct one with
that gateway in the place of its queries.  Whenever it comes to an end, the event met a fate in the
processing of it, and the answer is the one to that fate: the event is acknowledged if it was dealt
with or if its failure is final, and any other failure is handed back as it is; what is handed back
or belongs to a notification that cannot be used is recorded once, and nothing else as an error.
Failures without a text make the only exception. -/
theorem handle_answers (event : Event) :
    (∀ gateway, handle gateway event = (handle .direct event).through gateway) ∧
      ∀ h result, (handle .direct event).Ends h result →
        ∃ past rest fate, h = ⟨.retain .eventId event.recordedId, ()⟩ :: past ++ rest ∧
          (process .direct event).Ends past fate.result ∧ Meets event past fate ∧
          Answers event fate h.errors result := by
  refine ⟨fun gateway => handle_eq_through gateway event, fun h result ends => ?_⟩
  obtain ⟨_, onward, rfl, processes⟩ := Dialogue.ends_ask_iff.mp ends
  obtain ⟨_, last, between, rfl, awaited, wraps⟩ := Dialogue.ends_bind_iff.mp processes
  obtain ⟨past, rfl, processed⟩ := Dialogue.ends_awaited_iff.mp awaited
  obtain ⟨fate, meets, rfl⟩ := exists_meets_of_process processed
  refine ⟨past, ⟨.pause, ()⟩ :: last, fate, ?_, processed, meets, ?_⟩
  · rw [List.append_assoc]
    rfl
  · have quiet : past.errors = [] := errors_eq_nil_of_obeys (obeys_process event) processed
    have errors : History.errors (⟨.retain .eventId event.recordedId, ()⟩ ::
        (past ++ [⟨.pause, ()⟩] ++ last)) = last.errors := by
      rw [← List.singleton_append, History.errors_append, History.errors_append,
        History.errors_append, quiet]
      rfl
    rw [errors]
    exact answers_of_wrapUp wraps

/-! ### A gateway that refuses -/

/-- An event is handled by processing it and wrapping up. -/
lemma ends_handle {past rest : History} {result answered : Except Failure Unit}
    (processed : (process .direct event).Ends past result)
    (wrapped : (wrapUp event result).Ends rest answered) :
    (handle .direct event).Ends
      (⟨.retain .eventId event.recordedId, ()⟩ :: (past ++ [⟨.pause, ()⟩] ++ rest)) answered := by
  refine Dialogue.ends_ask_iff.mpr ⟨(), _, rfl, ?_⟩
  refine Dialogue.ends_bind_iff.mpr ⟨_, rest, result, rfl, ?_, wrapped⟩
  exact Dialogue.ends_awaited_iff.mpr ⟨past, rfl, processed⟩

/-- A failure with an entry is recorded and answered. -/
lemma ends_handle_of_entry {past : History} {f : Failure} {entry : Entry}
    (processed : (process .direct event).Ends past (.error f))
    (described : failureEntry event f = .ok entry) :
    (handle .direct event).Ends (⟨.retain .eventId event.recordedId, ()⟩ ::
      (past ++ [⟨.pause, ()⟩] ++ [⟨.record entry, ()⟩, ⟨.release keys, ()⟩])) (answer f) := by
  refine ends_handle processed ?_
  rw [wrapUp, described]
  exact Dialogue.ends_ask_iff.mpr ⟨(), _, rfl, ends_release_iff.mpr ⟨rfl, rfl⟩⟩

/-- A failure without a text is replaced, and no error is recorded. -/
lemma exists_ends_handle_of_undescribable {past : History} {f : Failure}
    (processed : (process .direct event).Ends past (.error f)) (supported : ¬ f.IsUnsupported)
    (undescribable : ¬ f.IsDescribable) :
    ∃ h rest : History, h = ⟨.retain .eventId event.recordedId, ()⟩ :: (past ++ rest) ∧
      (handle .direct event).Ends h (.error .unprintable) ∧ h.errors = [] := by
  have wrapped : (wrapUp event (.error f)).Ends [⟨.release keys, ()⟩] (.error .unprintable) := by
    rw [wrapUp, failureEntry_eq_unprintable event supported undescribable]
    exact ends_release_iff.mpr ⟨rfl, rfl⟩
  have quiet : past.errors = [] := errors_eq_nil_of_obeys (obeys_process event) processed
  have ends := ends_handle processed wrapped
  rw [List.append_assoc] at ends
  refine ⟨_, _, rfl, ends, ?_⟩
  rw [← List.singleton_append, History.errors_append, History.errors_append, quiet]
  rfl

/-- An active finding whose organization cannot be shown comes to a failure that says so. -/
lemma ends_process_of_refused {finding : Finding}
    (carried : Intake.finding event = .ok finding) (state : finding.state = .active)
    (settings : Settings) (configuration : Configuration)
    (covers : configuration.covers (Organization.resourceName finding.organizationId) = true)
    (reason : Failure) :
    ∃ past, (process .direct event).Ends past (.error (reason.classify
      (.policyFetch (Organization.resourceName finding.organizationId) .fetchOrganization))) := by
  let plan : Plan := planFor finding settings configuration
  have covered : plan.configuration.covers plan.resource = true := covers
  have executed : (Remediation.execute .direct plan).Ends
      (History.operated [] (.organization plan.organizationId) (.error reason))
      (.error (reason.classify (.policyFetch plan.resource .fetchOrganization))) := by
    rw [Remediation.execute, if_pos covered]
    refine Attempt.ends_next_iff.mpr (.inl ⟨_, ?_, rfl⟩)
    exact .ask _ (.ask _ (.ask _ (.here _)))
  obtain ⟨rest, concluded⟩ : ∃ rest, (Attempt.next (Remediation.execute .direct plan).awaited conclude).Ends
      rest (.error (reason.classify (.policyFetch plan.resource .fetchOrganization))) :=
    ⟨_, Attempt.ends_next_iff.mpr
      (.inl ⟨_, Dialogue.ends_awaited_iff.mpr ⟨_, rfl, executed⟩, rfl⟩)⟩
  have remediated : (remediate .direct finding).Ends
      ([⟨.settings, .ok settings⟩] ++ ([⟨.configuration, .ok configuration⟩] ++
        ([⟨.invoke settings.timeout, .ok ()⟩] ++ rest)))
      (.error (reason.classify (.policyFetch plan.resource .fetchOrganization))) := by
    refine Attempt.ends_next_iff.mpr (.inr ⟨_, _, settings, rfl, Dialogue.ends_query_iff.mpr rfl,
      ?_⟩)
    refine Attempt.ends_next_iff.mpr (.inr ⟨_, _, configuration, rfl,
      Dialogue.ends_query_iff.mpr rfl, ?_⟩)
    exact Attempt.ends_next_iff.mpr (.inr ⟨_, _, (), rfl, Dialogue.ends_query_iff.mpr rfl,
      concluded⟩)
  rw [process, carried]
  dsimp only
  rw [follow, state]
  exact ⟨_, Dialogue.ends_ask_iff.mpr
    ⟨(), _, rfl, Dialogue.ends_ask_iff.mpr ⟨(), _, rfl, remediated⟩⟩⟩

/-- What comes of an event with an active finding if the organization cannot be shown. -/
lemma ends_process_activeEvent (reason : Failure) :
    ∃ past, (process .direct Rehearsal.World.activeEvent).Ends past (.error (reason.classify
      (.policyFetch Remediation.plainPlan.resource .fetchOrganization))) :=
  ends_process_of_refused Rehearsal.World.finding_activeEvent rfl
    ⟨Settings.defaultTimeout, Settings.defaultWriteAttempts⟩ ⟨[], none⟩ rfl reason

/-- A failure of the gateway is recorded and handed back. -/
theorem handle_answers_refused :
    let raised : Failure :=
      .problem (.policyFetch Remediation.plainPlan.resource .fetchOrganization) (.error "down")
    ∃ h, (handle .direct Rehearsal.World.activeEvent).Ends h (.error raised) ∧
      ∃ past fate, (process .direct Rehearsal.World.activeEvent).Ends past fate.result ∧
        Answers Rehearsal.World.activeEvent fate h.errors (.error raised) := by
  intro raised
  obtain ⟨past, processed⟩ := ends_process_activeEvent (.error "down")
  have described : failureEntry Rehearsal.World.activeEvent raised =
      .ok (.failed (raised.describeWith "Failed to get organization for organizations/1"
        (some "down"))) := by
    decide +kernel
  have ends := ends_handle_of_entry processed described
  obtain ⟨past, -, fate, -, processed, -, answers⟩ :=
    (handle_answers Rehearsal.World.activeEvent).2 _ _ ends
  exact ⟨_, ends, past, fate, processed, answers⟩

/-- A value that claims to know its own text has none. -/
lemma not_isDescribable_of_members {p : Problem} {members : Members}
    (claims : (Json.lookup Json.plainTextKey members).isSome) :
    ¬ (Failure.problem p (.json (.object members))).IsDescribable := by
  rintro ⟨-, causeHasText⟩
  have silent : Json.plain? (.object members) = none := by rw [Json.plain?, if_pos claims]
  have none : (Json.plain? (.object members)).isSome = true := causeHasText
  rw [silent] at none
  cases none

/-- A failure without a text is neither recorded nor handed back, and a notification that cannot be
used is not acknowledged if there is no text for the cause. -/
theorem failure_without_text_is_replaced :
    let event := Rehearsal.World.activeEvent
    let mute : Failure := .json (.object [("toString", .number (.whole 1))])
    let lost : Failure :=
      .problem (.policyFetch Remediation.plainPlan.resource .fetchOrganization) mute
    let malformed : Failure := .problem (.malformedPayload (.described "m")) mute
    (isFinal lost = false ∧ lost ≠ .unprintable ∧ ∃ past h rest : History,
        (process .direct event).Ends past (.error lost) ∧
          h = ⟨.retain .eventId event.recordedId, ()⟩ :: (past ++ rest) ∧
          (handle .direct event).Ends h (.error .unprintable) ∧ h.errors = []) ∧
      isFinal malformed = true ∧ ∃ past h rest : History,
        (process .direct event).Ends past (.error malformed) ∧
          h = ⟨.retain .eventId event.recordedId, ()⟩ :: (past ++ rest) ∧
          (handle .direct event).Ends h (.error .unprintable) ∧ h.errors = [] := by
  intro event mute lost malformed
  have undescribable (p : Problem) : ¬ (Failure.problem p mute).IsDescribable :=
    not_isDescribable_of_members rfl
  have supported : ¬ lost.IsUnsupported ∧ ¬ malformed.IsUnsupported := by
    constructor
    · rintro ⟨category, expected, ⟨⟩⟩
    · rintro ⟨category, expected, ⟨⟩⟩
  refine ⟨⟨rfl, (by decide), ?_⟩, rfl, ?_⟩
  · obtain ⟨past, processed⟩ := ends_process_activeEvent mute
    obtain ⟨h, rest, onward⟩ :=
      exists_ends_handle_of_undescribable processed supported.1 (undescribable _)
    exact ⟨past, h, rest, processed, onward⟩
  · obtain ⟨past, processed⟩ := ends_process_activeEvent malformed
    obtain ⟨h, rest, onward⟩ :=
      exists_ends_handle_of_undescribable processed supported.2 (undescribable _)
    exact ⟨past, h, rest, processed, onward⟩

end Intake

end PolicyWarden
