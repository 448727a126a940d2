import Mathlib.Data.List.Basic
import Mathlib.Data.List.Flatten
import Mathlib.Data.List.Forall2
import Mathlib.Tactic.Common
import PolicyWarden.Proofs.Allowance
import PolicyWarden.Proofs.Policy.Compliance

/-!
# What purges do

A purge is one walk through all members of a policy, which keeps some of them and notes the others.
Seen from its result it divides every binding (`Policy.purge_divides_members`): each occurrence of a
member either stays in its place or is noted, and nothing else is touched.

Members are judged one by one, so purges under several allowances compose as their judgements do
(`Policy.purges_compose`).  After two purges a binding has the members that both allowances permit,
in whichever order they came, and an allowance with more domains takes nothing out that one with
fewer domains leaves in.
-/

namespace PolicyWarden

namespace Binding

variable {narrow wide : Allowance} {b : Binding}

/-- After two purges those members are left that both allowances permit. -/
lemma purge_purge (a a' : Allowance) (b : Binding) :
    (b.purge a).purge a' =
      { b with members := b.members.filter fun member => a.permits member && a'.permits member } := by
  simp only [purge, List.filter_filter, Bool.and_comm]

/-- With more domains, fewer members are taken out, and these in the same order. -/
lemma removals_sublist (more : narrow.orgDomain :: narrow.domains ⊆ wide.orgDomain :: wide.domains)
    (b : Binding) : (b.removals wide).Sublist (b.removals narrow) := by
  have fewer : ∀ member, (!wide.permits member) = true → (!narrow.permits member) = true := by
    intro member leaves
    cases stays : narrow.permits member with
    | false => rfl
    | true =>
      have permitted := Allowance.permits_of_subset more stays
      rw [permitted] at leaves
      cases leaves
  exact (List.monotone_filter_right b.members fewer).map _

end Binding

namespace Policy

variable {a a' narrow wide : Allowance} {p : Policy}

/-- A purge is one of every binding, and whatever else there is stays. -/
lemma policy_purge (a : Allowance) (p : Policy) :
    (p.purge a).policy = { p with bindings := p.bindings.map (Binding.purge a) } := by
  rw [← bindings_purge]
  rfl

/-- **What a purge divides.**  A purged policy has the bindings of the policy one by one, and
whatever else the policy carries.  Each binding has the role and everything else that it had, and
of its members the permitted ones in their order.  The removals are, binding by binding, the members
that are not permitted, in their order and with the role of their binding.  So each occurrence of a
member in a binding is one among those who stay or among those who leave, and there are no others. -/
theorem purge_divides_members (a : Allowance) (p : Policy) :
    (p.purge a).policy.rest = p.rest ∧
    List.Forall₂ (fun b purged =>
        purged.role = b.role ∧ purged.rest = b.rest ∧
        purged.members = b.members.filter a.permits ∧
        (purged.members ++ b.members.filter fun member => !a.permits member).Perm b.members)
      p.bindings (p.purge a).policy.bindings ∧
    (p.purge a).removals =
      p.bindings.flatMap fun b =>
        (b.members.filter fun member => !a.permits member).map fun member => ⟨b.role, member⟩ := by
  refine ⟨rest_purge a p, ?_, removals_purge a p⟩
  rw [bindings_purge, List.forall₂_map_right_iff, List.forall₂_same]
  intro b _
  have divided := List.filter_append_perm a.permits b.members
  exact ⟨rfl, rfl, rfl, divided⟩

/-- After two purges those members are left in each binding that both allowances permit. -/
lemma policy_purge_purge (a a' : Allowance) (p : Policy) :
    ((p.purge a).policy.purge a').policy =
      { p with bindings := p.bindings.map fun b =>
          { b with
            members := b.members.filter fun member => a.permits member && a'.permits member } } := by
  rw [policy_purge a', policy_purge a, List.map_map]
  congr 2
  funext b
  exact Binding.purge_purge a a' b

/-- Two purges may come in either order. -/
lemma policy_purge_comm (a a' : Allowance) (p : Policy) :
    ((p.purge a).policy.purge a').policy = ((p.purge a').policy.purge a).policy := by
  simp only [policy_purge_purge, Bool.and_comm]

/-- A policy that complies also complies with more domains. -/
lemma Complies.of_subset (complies : p.Complies narrow)
    (more : narrow.orgDomain :: narrow.domains ⊆ wide.orgDomain :: wide.domains) :
    p.Complies wide := by
  intro b listed member mem
  exact Allowance.permits_of_subset more (complies b listed member mem)

/-- With more domains, fewer members are taken out, and these in the same order. -/
lemma removals_sublist (more : narrow.orgDomain :: narrow.domains ⊆ wide.orgDomain :: wide.domains)
    (p : Policy) : (p.purge wide).removals.Sublist (p.purge narrow).removals := by
  rw [removals_purge, removals_purge]
  exact List.Sublist.flatMap_right p.bindings fun b _ => Binding.removals_sublist more b

/-- **Purges compose.**  Two purges leave in each binding the members that both allowances permit,
so they may come in either order, and a second purge under the same allowance changes nothing and
takes nothing out.  If all domains of the first allowance are domains of the second, the second
makes no difference to the policy, before or after the first: it takes out some of the members that
the first takes out, in the same order, and none if it comes after the first. -/
theorem purges_compose (a a' : Allowance) (p : Policy) :
    ((p.purge a).policy.purge a').policy =
      { p with bindings := p.bindings.map fun b =>
          { b with
            members := b.members.filter fun member => a.permits member && a'.permits member } } ∧
    ((p.purge a).policy.purge a').policy = ((p.purge a').policy.purge a).policy ∧
    (p.purge a).policy.purge a = ⟨(p.purge a).policy, []⟩ ∧
    (a.orgDomain :: a.domains ⊆ a'.orgDomain :: a'.domains →
      ((p.purge a').policy.purge a).policy = (p.purge a).policy ∧
      ((p.purge a).policy.purge a').policy = (p.purge a).policy ∧
      (p.purge a').removals.Sublist (p.purge a).removals ∧
      ((p.purge a).policy.purge a').removals = []) := by
  have again : (p.purge a).policy.purge a = ⟨(p.purge a).policy, []⟩ :=
    purge_of_complies complies_purge
  refine ⟨policy_purge_purge a a' p, policy_purge_comm a a' p, again, fun more => ?_⟩
  have after : (p.purge a).policy.purge a' = ⟨(p.purge a).policy, []⟩ :=
    purge_of_complies (complies_purge.of_subset more)
  have before : ((p.purge a').policy.purge a).policy = (p.purge a).policy := by
    rw [policy_purge_comm, after]
  refine ⟨before, ?_, removals_sublist more p, ?_⟩
  · rw [after]
  · rw [after]

/-- A policy with members of three domains is purged under one domain and under two. -/
theorem purges_compose_widened :
    let narrow : Allowance := ⟨"a", []⟩
    let wide : Allowance := ⟨"b", ["a"]⟩
    let p : Policy := ⟨[⟨"owner", ["user:x@c", "user:y@b", "user:z@a", "user:x@c"], []⟩], []⟩
    narrow.orgDomain :: narrow.domains ⊆ wide.orgDomain :: wide.domains ∧
      ((p.purge wide).policy.purge narrow).policy = (p.purge narrow).policy ∧
      (p.purge wide).removals = [⟨"owner", "user:x@c"⟩, ⟨"owner", "user:x@c"⟩] ∧
      (p.purge wide).removals.Sublist (p.purge narrow).removals := by
  intro narrow wide p
  have more : narrow.orgDomain :: narrow.domains ⊆ wide.orgDomain :: wide.domains := by decide
  obtain ⟨before, -, fewer, -⟩ := (purges_compose narrow wide p).2.2.2 more
  exact ⟨more, before, by decide, fewer⟩

end Policy

end PolicyWarden
