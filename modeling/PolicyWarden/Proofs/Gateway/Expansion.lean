import Mathlib.Tactic.Common
import PolicyWarden.Proofs.Dialogue.Course
import PolicyWarden.Proofs.Gateway.Substitution

/-!
# Histories through a gateway

When a gateway carries out the operations that a dialogue asks for, the history grows longer: each
operation becomes the whole exchange of the gateway that carries it out.  `Gateway.Expands` relates
the history of the dialogue to the longer one, and `asks_through_iff` says that whatever is asked
through a gateway is asked by the gateway itself, while it carries out one of the queries of the
dialogue, after an expansion of what the dialogue has heard so far.
-/

namespace PolicyWarden

namespace Gateway

/-- What a gateway does about a query: operations are carried out, and everything else is left to
the world. -/
def carryOut (gateway : Gateway) : (query : Query) → Dialogue query.Reply
  | .organization id => gateway.organization id
  | .policy resource => gateway.policy resource
  | .write resource policy version => gateway.write resource policy version
  | query => .query query

/-- The second history is the first one with every query carried out by the gateway. -/
inductive Expands (gateway : Gateway) : History → History → Prop where
  | nil : Expands gateway [] []
  | cons {query : Query} {reply : query.Reply} {past k h : History}
      (carried : (gateway.carryOut query).Ends past reply) (rest : Expands gateway k h) :
      Expands gateway (⟨query, reply⟩ :: k) (past ++ h)

variable {gateway : Gateway} {k l h : History}

/-- Both parts of a history are expanded. -/
lemma Expands.exists_of_append (expands : gateway.Expands (k ++ l) h) :
    ∃ past rest, h = past ++ rest ∧ gateway.Expands k past ∧ gateway.Expands l rest := by
  induction k generalizing h with
  | nil => exact ⟨[], h, rfl, .nil, expands⟩
  | cons exchange k ih =>
    cases expands with
    | cons carried onward =>
      obtain ⟨past, rest, rfl, first, second⟩ := ih onward
      exact ⟨_, rest, (List.append_assoc ..).symm, .cons carried first, second⟩

/-- The first exchange of a history is carried out, and the others are expanded. -/
lemma Expands.exists_of_cons {exchange : Exchange} (expands : gateway.Expands (exchange :: k) h) :
    ∃ past rest, h = past ++ rest ∧ (gateway.carryOut exchange.query).Ends past exchange.reply ∧
      gateway.Expands k rest := by
  cases expands with
  | cons carried onward => exact ⟨_, _, rfl, carried, onward⟩

end Gateway

namespace Dialogue

variable {α : Type} {gateway : Gateway} {h : History} {q : Query}

/-- A dialogue through a gateway begins with what the gateway does about its first query. -/
lemma through_ask {first : Query} {next : first.Reply → Dialogue α} :
    (ask first next).through gateway =
      (gateway.carryOut first).bind fun reply => (next reply).through gateway := by
  cases first <;> rfl

/-- Whatever is asked through a gateway is asked while the gateway carries out a query that the
dialogue asks. -/
lemma asks_through_iff {d : Dialogue α} :
    (d.through gateway).Asks h q ↔
      ∃ k past rest query, h = past ++ rest ∧ gateway.Expands k past ∧ d.Asks k query ∧
        (gateway.carryOut query).Asks rest q := by
  induction d generalizing h with
  | done value => simp
  | ask first next ih =>
    simp only [through_ask, asks_bind_iff, ih]
    constructor
    · rintro (inside | ⟨done, _, reply, rfl, ends, k, past, rest, query, rfl, expands, asks, asked⟩)
      · exact ⟨[], [], h, first, rfl, .nil, asks_ask_iff.mpr (.inl ⟨rfl, rfl⟩), inside⟩
      · exact ⟨⟨first, reply⟩ :: k, done ++ past, rest, query, (List.append_assoc ..).symm,
          .cons ends expands, asks_ask_iff.mpr (.inr ⟨reply, k, rfl, asks⟩), asked⟩
    · rintro ⟨k, past, rest, query, rfl, expands, asks, asked⟩
      rcases asks_ask_iff.mp asks with ⟨rfl, rfl⟩ | ⟨reply, k, rfl, later⟩
      · cases expands
        exact .inl asked
      · obtain ⟨done, past, rfl, ends, expands⟩ := expands.exists_of_cons
        exact .inr ⟨done, past ++ rest, reply, List.append_assoc .., ends, k, past, rest, query,
          rfl, expands, later, asked⟩

end Dialogue

end PolicyWarden
