import PolicyWarden.Failure.Basic
import PolicyWarden.Timeline.Calendar

/-!
# Time and invocations

An invocation has a deadline and a signal.  It stands as long as its signal has not been raised and
the deadline is still ahead; both are looked at, because a timer may fire late.  The signal is
raised once, by the timer or by an abort, and keeps the reason of that one time.

A deadline beyond the calendar cannot be told, and neither can the time that is left when the clock
is out there.  Such an invocation goes on until its signal is raised.

The deadline is as far ahead as the time limit says, and the timer is meant to agree with it.  But a
timer keeps no delay above a bound of its platform, which is lower than the largest time limit that
is accepted: a longer delay is replaced by a millisecond, and the signal comes up at once.
-/

namespace PolicyWarden

/-! ### Invocations -/

/-- One invocation: the instant by which it must be over, the instant at which its timer is due, and
the reason for which its signal was raised.  A deadline beyond the calendar is missing. -/
structure Invocation where
  deadline : Option Instant
  due : Instant
  reason : Option Failure
  deriving DecidableEq, Repr

/-- Whether an invocation may go on: with how many milliseconds left, if that is known, or why
not. -/
inductive Standing where
  | active (remaining : Option Nat)
  | expired (reason : Failure)
  deriving DecidableEq, Repr

namespace Invocation

/-- The milliseconds that are left on a clock, never less than zero; unknown if the deadline or the
clock is beyond the calendar. -/
def remaining (i : Invocation) (clock : Instant) : Option Nat :=
  i.deadline.bind fun deadline => clock.onCalendar?.map fun now => (deadline - now).toNat

/-- The signal has been raised. -/
def aborted (i : Invocation) : Bool :=
  i.reason.isSome

/-- The standing of an invocation on a clock; one that merely ran out of time has no reason. -/
def standing (i : Invocation) (clock : Instant) : Standing :=
  match i.reason with
  | some reason => .expired reason
  | none => if i.remaining clock = some 0 then .expired .absent else .active (i.remaining clock)

/-- Raise the signal; a second time changes nothing. -/
def abort (i : Invocation) (reason : Failure) : Invocation :=
  { i with reason := some (i.reason.getD reason) }

/-- After an abort the signal has been raised. -/
@[simp]
theorem aborted_abort (i : Invocation) (reason : Failure) : (i.abort reason).aborted = true :=
  rfl

/-- The first reason stays. -/
@[simp]
theorem abort_abort (i : Invocation) (first second : Failure) :
    (i.abort first).abort second = i.abort first := by
  simp [abort]

/-- An invocation may go on exactly while its signal is down and its time is not known to be up. -/
theorem standing_eq_active_iff {i : Invocation} {clock : Instant} {left : Option Nat} :
    i.standing clock = .active left ↔
      i.aborted = false ∧ i.remaining clock = left ∧ left ≠ some 0 := by
  cases h : i.reason with
  | some reason => simp [standing, aborted, h]
  | none => grind [standing, aborted]

end Invocation

/-! ### Reasons -/

/-- The reason of a timer. -/
def timeoutReason : Failure :=
  .plainFault "TimeoutError" "The operation was aborted due to timeout"

/-- The reason of an abort: the one given, or a plain one in place of none. -/
def abortReason : Failure → Failure
  | .absent => .plainFault "AbortError" "This operation was aborted"
  | reason => reason

/-- A date beyond the calendar cannot be shown. -/
def noDate : Failure :=
  .plainFault "RangeError" "Invalid time value"

/-! ### Time limits -/

/-- The largest time limit of a timer. -/
def longestTimeout : Nat :=
  4294967295

/-- Integers beyond this magnitude are shown in groups of digits. -/
def groupingBound : Nat :=
  4294967296

/-- Digits, the last one first, in groups of three. -/
def groupDigits : Text → Text
  | a :: b :: c :: d :: rest => a :: b :: c :: CodeUnit.ofChar '_' :: groupDigits (d :: rest)
  | digits => digits

/-- A number in groups of three digits behind its sign. -/
def grouped : Text → Text
  | [] => []
  | u :: rest =>
      if u = CodeUnit.ofChar '-' then u :: (groupDigits rest.reverse).reverse
      else (groupDigits (u :: rest).reverse).reverse

/-- A refused time limit as it is shown. -/
def receivedText (timeout : Number) : Text :=
  match timeout.toInt? with
  | some n => if groupingBound < n.natAbs then grouped timeout.render else timeout.render
  | none => timeout.render

/-- A time limit is out of range. -/
def outOfRange (requirement : Text) (timeout : Number) : Failure :=
  .plainFault "RangeError"
    (("The value of \"delay\" is out of range. It must be " : Text) ++ requirement ++
      ". Received " ++ receivedText timeout)

/-- The milliseconds of a time limit: an integer in the range of timers. -/
def readTimeout (timeout : Number) : Except Failure Nat :=
  match timeout.toInt? with
  | none => .error (outOfRange "an integer" timeout)
  | some n =>
      if 0 ≤ n && n ≤ longestTimeout then .ok n.toNat
      else .error (outOfRange ">= 0 && <= 4294967295" timeout)

/-! ### Timelines -/

/-- The present instant, all invocations so far, in the order in which they were opened, and the
longest delay in milliseconds that timers keep. -/
structure Timeline where
  now : Instant
  invocations : List Invocation
  longestDelay : Nat := 2147483647
  deriving DecidableEq, Repr

namespace Timeline

/-- The instant at which time starts: 2024-03-04 at half past nine. -/
def start : Timeline :=
  { now := 1709544600000, invocations := [] }

/-- The deadline of a time limit that begins now, on a clock that is ahead by `offset`. -/
def deadline? (t : Timeline) (timeout : Nat) (offset : Int) : Option Instant :=
  (Instant.onCalendar? (t.now + offset)).bind fun clock => Instant.onCalendar? (clock + timeout)

/-- The delay of a timer that is set for a time limit: a delay of zero and one that is too long
are replaced by a millisecond. -/
def delay (t : Timeline) (timeout : Nat) : Nat :=
  if 1 ≤ timeout ∧ timeout ≤ t.longestDelay then timeout else 1

/-- An invocation that is opened now with a time limit. -/
def opened (t : Timeline) (timeout : Nat) (offset : Int) : Invocation :=
  ⟨t.deadline? timeout offset, t.now + t.delay timeout, none⟩

/-- Open an invocation. -/
def openInvocation (t : Timeline) (timeout : Number) (offset : Int) : Except Failure Timeline :=
  (readTimeout timeout).map fun millis =>
    { t with invocations := t.invocations ++ [t.opened millis offset] }

/-- An invocation by its number. -/
def invocation? (t : Timeline) (number : Nat) : Option Invocation :=
  t.invocations[number]?

/-- The number of the newest invocation. -/
def newest? (t : Timeline) : Option Nat :=
  if t.invocations.isEmpty then none else some (t.invocations.length - 1)

/-- Raise the signal of an invocation. -/
def abort (t : Timeline) (number : Nat) (reason : Failure) : Timeline :=
  { t with invocations := t.invocations.modify number fun i => i.abort reason }

/-- Let time pass without any timer firing. -/
def stall (t : Timeline) (millis : Int) : Timeline :=
  { t with now := t.now + millis }

/-- The timer of an invocation is due at an instant and has not been forestalled. -/
def isDue (now : Instant) (i : Invocation) : Bool :=
  i.due ≤ now && !i.aborted

/-- The numbers of the invocations whose timers are due, the earliest timer first. -/
def dueNumbers (t : Timeline) : List Nat :=
  let due := t.invocations.zipIdx.filter fun entry => isDue t.now entry.1
  (due.mergeSort fun a b => a.1.due ≤ b.1.due).map (·.2)

/-- Fire the timer of an invocation if it is due. -/
def fire (now : Instant) (i : Invocation) : Invocation :=
  if isDue now i then i.abort timeoutReason else i

/-- Let time pass and fire all timers that are due then. -/
def advance (t : Timeline) (millis : Int) : Timeline :=
  let later := t.stall millis
  { later with invocations := later.invocations.map (fire later.now) }

end Timeline

end PolicyWarden
