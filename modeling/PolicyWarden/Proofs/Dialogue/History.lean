import Mathlib.Tactic.Common
import PolicyWarden.Dialogue.Basic

/-!
# Histories of dialogues

A history lists what a dialogue has asked so far, each query with the reply that it got.
`Dialogue.Reaches` says which histories a dialogue can have and how it goes on after them.  Since
nothing is said about who replies, these are the histories under any behaviour of the world.

`Dialogue.Ensures` states in one go what every query satisfies when it is asked and what every value
satisfies when it is reached, both in view of the history up to there.  It follows the structure of
the dialogue, and `ensures_bind` takes it apart where a dialogue is put together; `Reaches.ensures`
carries it over to every history.
-/

namespace PolicyWarden

/-- A query together with the reply that it got. -/
structure Exchange where
  query : Query
  reply : query.Reply

/-- Exchanges in the order in which they took place. -/
abbrev History := List Exchange

namespace Dialogue

variable {α β : Type}

/-! ### Histories -/

/-- `d.Reaches h e` says that `d` goes on as `e` after the exchanges of `h`. -/
inductive Reaches : Dialogue α → History → Dialogue α → Prop where
  | here (d : Dialogue α) : Reaches d [] d
  | ask {query : Query} {next : query.Reply → Dialogue α} {h : History} {e : Dialogue α}
      (reply : query.Reply) (rest : Reaches (next reply) h e) :
      Reaches (.ask query next) (⟨query, reply⟩ :: h) e

/-- One more reply takes a dialogue one exchange further. -/
lemma Reaches.concat {d : Dialogue α} {h : History} {query : Query}
    {next : query.Reply → Dialogue α} (reach : d.Reaches h (.ask query next))
    (reply : query.Reply) : d.Reaches (h ++ [⟨query, reply⟩]) (next reply) := by
  generalize he : Dialogue.ask query next = e at reach
  induction reach with
  | here d =>
    subst he
    exact .ask reply (.here _)
  | ask first rest ih => exact .ask first (ih he)

/-- The query that a dialogue asks next, unless it is done. -/
def asked? : Dialogue α → Option Query
  | done _ => none
  | ask query _ => some query

/-- A dialogue that asks a query next goes on with the reply to it. -/
lemma eq_ask_of_asked? {d : Dialogue α} {query : Query} (asked : d.asked? = some query) :
    ∃ next, d = .ask query next := by
  cases d with
  | done value => cases asked
  | ask other next =>
    cases asked
    exact ⟨next, rfl⟩

/-! ### What a dialogue ensures -/

/-- After the history `h`, whatever is replied, every query satisfies `asks` when it is asked, and
every value satisfies `ends` when it is reached. -/
def Ensures (asks : History → Query → Prop) (ends : History → α → Prop) :
    Dialogue α → History → Prop
  | done value, h => ends h value
  | ask query next, h =>
      asks h query ∧ ∀ reply, (next reply).Ensures asks ends (h ++ [⟨query, reply⟩])

variable {asks : History → Query → Prop} {ends : History → α → Prop} {h : History}

@[simp]
lemma ensures_done {value : α} : (done value).Ensures asks ends h ↔ ends h value :=
  Iff.rfl

@[simp]
lemma ensures_ask {query : Query} {next : query.Reply → Dialogue α} :
    (ask query next).Ensures asks ends h ↔
      asks h query ∧ ∀ reply, (next reply).Ensures asks ends (h ++ [⟨query, reply⟩]) :=
  Iff.rfl

/-- What follows a dialogue has to be right after each of its ends. -/
lemma ensures_bind {d : Dialogue α} {next : α → Dialogue β} {ends : History → β → Prop} :
    (d.bind next).Ensures asks ends h ↔
      d.Ensures asks (fun h value => (next value).Ensures asks ends h) h := by
  induction d generalizing h with
  | done value => rfl
  | ask query reply ih => simp only [bind_ask, ensures_ask, ih]

/-- What is ensured for every continuation holds along every history. -/
lemma Reaches.ensures {d e : Dialogue α} {past : History} (reach : d.Reaches h e)
    (ensured : d.Ensures asks ends past) : e.Ensures asks ends (past ++ h) := by
  induction reach generalizing past with
  | here d => simpa using ensured
  | ask reply rest ih => simpa using ih (ensured.2 reply)

/-- Every query satisfies what is ensured of queries. -/
lemma Reaches.asks_of_ensures {d : Dialogue α} {query : Query} {next : query.Reply → Dialogue α}
    (reach : d.Reaches h (.ask query next)) (ensured : d.Ensures asks ends []) : asks h query :=
  (reach.ensures ensured).1

/-- Every value satisfies what is ensured of values. -/
lemma Reaches.ends_of_ensures {d : Dialogue α} {value : α} (reach : d.Reaches h (.done value))
    (ensured : d.Ensures asks ends []) : ends h value :=
  reach.ensures ensured

end Dialogue

end PolicyWarden
