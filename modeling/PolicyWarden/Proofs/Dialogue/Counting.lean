import Mathlib.Data.List.Induction
import Mathlib.Tactic.Common
import PolicyWarden.Proofs.Dialogue.Course

/-!
# Ends of dialogues and numbers of queries

A dialogue that gets a reply to each of its queries comes to an end, whatever the replies are and
however they depend on what was asked before (`exists_ends_isToldBy`).  `Dialogue.course` is the
history that it has then.

How much is asked on the way is counted by `History.count`, for the queries of any kind.  If no
query of a kind is asked once there have been so many of them, then there are never more
(`Reaches.count_le`), also in a history that has not come to its end.
-/

namespace PolicyWarden

/-! ### Counting -/

namespace History

variable {kind : Query → Bool}

/-- How many queries of a kind there are in a history. -/
def count (kind : Query → Bool) (h : History) : Nat :=
  h.countP fun exchange => kind exchange.query

@[simp]
lemma count_nil : count kind [] = 0 :=
  rfl

@[simp]
lemma count_cons (exchange : Exchange) (h : History) :
    count kind (exchange :: h) = count kind h + (kind exchange.query).toNat := by
  rw [count, List.countP_cons, count]
  cases kind exchange.query <;> rfl

@[simp]
lemma count_append (h k : History) : count kind (h ++ k) = count kind h + count kind k :=
  List.countP_append

/-- A history in which no query is of a kind has none of them. -/
lemma count_eq_zero {h : History} (none : ∀ exchange ∈ h, kind exchange.query = false) :
    h.count kind = 0 := by
  rw [count, List.countP_eq_zero]
  intro exchange mem
  rw [none exchange mem]
  exact Bool.false_ne_true

/-- Each reply is the one that is to be given after what came before it. -/
def IsToldBy (replies : History → (query : Query) → query.Reply) (h : History) : Prop :=
  ∀ past exchange rest, h = past ++ exchange :: rest →
    exchange.reply = replies past exchange.query

end History

namespace Dialogue

variable {α : Type} {d e : Dialogue α} {h k : History} {kind : Query → Bool}

/-- Without any exchange a dialogue is where it was. -/
lemma Reaches.eq_of_nil (reach : d.Reaches [] e) : e = d := by
  cases reach
  rfl

/-- A history that ends in an exchange comes from a dialogue that asked the query before it. -/
lemma Reaches.exists_of_concat {exchange : Exchange} (reach : d.Reaches (k ++ [exchange]) e) :
    ∃ next, d.Reaches k (.ask exchange.query next) ∧ e = next exchange.reply := by
  induction k generalizing d with
  | nil =>
    cases reach with
    | ask reply rest =>
      exact ⟨_, .here _, rest.eq_of_nil⟩
  | cons first k ih =>
    cases reach with
    | ask reply rest =>
      obtain ⟨next, onward, eq⟩ := ih rest
      exact ⟨next, .ask reply onward, eq⟩

/-- If no query of a kind is asked once there have been so many, there are never more. -/
lemma Reaches.count_le {limit : Nat} (reach : d.Reaches h e)
    (bounded : ∀ k query, d.Asks k query → kind query = true → k.count kind < limit) :
    h.count kind ≤ limit := by
  induction h using List.reverseRecOn generalizing e with
  | nil => exact Nat.zero_le limit
  | append_singleton k exchange ih =>
    obtain ⟨next, before, -⟩ := reach.exists_of_concat
    have earlier : History.count kind k ≤ limit := ih before
    rw [History.count_append, History.count_cons, History.count_nil]
    cases same : kind exchange.query with
    | false => simpa using earlier
    | true =>
      have fewer : History.count kind k < limit := bounded k exchange.query ⟨next, before⟩ same
      simpa using Nat.succ_le_of_lt fewer

/-! ### Coming to an end -/

/-- The history of a dialogue under given replies, and the value that it reaches; the replies may
depend on everything that was asked before. -/
def course (replies : History → (query : Query) → query.Reply) :
    Dialogue α → History → History × α
  | done value, _ => ([], value)
  | ask query next, past =>
      let reply := replies past query
      let rest := (next reply).course replies (past ++ [⟨query, reply⟩])
      (⟨query, reply⟩ :: rest.1, rest.2)

variable (replies : History → (query : Query) → query.Reply)

/-- The course of a dialogue leads to its end. -/
lemma ends_course (d : Dialogue α) (past : History) :
    d.Ends (d.course replies past).1 (d.course replies past).2 := by
  induction d generalizing past with
  | done value => exact .here _
  | ask query next ih => exact .ask (replies past query) (ih _ _)

/-- On its course a dialogue hears the given replies. -/
lemma reply_of_course (d : Dialogue α) (before : History) {past rest : History}
    {exchange : Exchange} (split : (d.course replies before).1 = past ++ exchange :: rest) :
    exchange.reply = replies (before ++ past) exchange.query := by
  induction d generalizing before past with
  | done value =>
    have none : [] = past ++ exchange :: rest := split
    exact absurd none (by simp)
  | ask query next ih =>
    rcases past with _ | ⟨first, past⟩
    · obtain ⟨rfl, -⟩ := List.cons.inj split
      rw [List.append_nil]
    · obtain ⟨rfl, onward⟩ := List.cons.inj split
      have told := ih _ _ onward
      rwa [List.append_assoc] at told

/-- Whatever is replied, a dialogue comes to an end. -/
lemma exists_ends_isToldBy (d : Dialogue α) :
    ∃ h value, d.Ends h value ∧ h.IsToldBy replies := by
  refine ⟨_, _, ends_course replies d [], ?_⟩
  intro past exchange rest split
  exact reply_of_course replies d [] split

end Dialogue

end PolicyWarden
