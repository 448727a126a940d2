import Mathlib.Tactic.Common
import PolicyWarden.Allowance

/-!
# Who has to leave

A member is split twice: at its first colon into a kind and an identifier, and the identifier behind
its last at sign.  A text can be split in only one way at a first or at a last occurrence
(`Text.splitFirst?_append`, `Text.afterLast?_append`), so members can be read backwards: a member
has to leave exactly if it is `user:` and an identifier without an allowed domain behind its last at
sign (`Allowance.permits_decides`).  Nothing else in a member has a say, neither further colons nor
further at signs, and a domain that only resembles an allowed one is another domain.

The allowance enters through the set of its domains alone, so of two allowances the one with more
domains permits more members (`Allowance.permits_of_subset`).
-/

namespace PolicyWarden

/-! ### Two ways to split a text -/

namespace Text

variable {sep : CodeUnit} {t before behind : Text}

/-- A unit that occurs has a last occurrence. -/
lemma exists_last_of_mem (occurs : sep ∈ t) :
    ∃ before behind, t = before ++ sep :: behind ∧ sep ∉ behind := by
  have backwards : sep ∈ t.reverse := List.mem_reverse.mpr occurs
  obtain ⟨behind, before, eq, free⟩ := List.eq_append_cons_of_mem backwards
  refine ⟨before.reverse, behind.reverse, ?_, by simpa using free⟩
  have forwards := congrArg List.reverse eq
  simpa using forwards

/-- There is no split at a unit that does not occur. -/
lemma splitFirst?_of_not_mem (free : sep ∉ t) : splitFirst? sep t = none := by
  induction t with
  | nil => rfl
  | cons u t ih =>
    rw [List.mem_cons, not_or] at free
    rw [splitFirst?, if_neg (Ne.symm free.1), ih free.2, Option.map_none]

/-- A text is split at an occurrence that has none before it. -/
lemma splitFirst?_append (free : sep ∉ before) (behind : Text) :
    splitFirst? sep (before ++ sep :: behind) = some (before, behind) := by
  induction before with
  | nil => exact if_pos rfl
  | cons u before ih =>
    rw [List.mem_cons, not_or] at free
    rw [List.cons_append, splitFirst?, if_neg (Ne.symm free.1), ih free.2, Option.map_some]

/-- The split of a text is the one at its first occurrence. -/
lemma splitFirst?_eq_some_iff :
    splitFirst? sep t = some (before, behind) ↔ t = before ++ sep :: behind ∧ sep ∉ before := by
  constructor
  · intro split
    by_cases occurs : sep ∈ t
    · obtain ⟨first, rest, rfl, free⟩ := List.eq_append_cons_of_mem occurs
      rw [splitFirst?_append free] at split
      obtain ⟨rfl, rfl⟩ := Prod.mk.inj (Option.some.inj split)
      exact ⟨rfl, free⟩
    · rw [splitFirst?_of_not_mem occurs] at split
      cases split
  · rintro ⟨rfl, free⟩
    exact splitFirst?_append free behind

/-- Nothing stands behind a unit that does not occur. -/
lemma afterLast?_of_not_mem (free : sep ∉ t) : afterLast? sep t = none := by
  induction t with
  | nil => rfl
  | cons u t ih =>
    rw [List.mem_cons, not_or] at free
    rw [afterLast?, ih free.2]
    exact if_neg (Ne.symm free.1)

/-- Behind the last occurrence stands what has no occurrence in it. -/
lemma afterLast?_append (free : sep ∉ behind) (before : Text) :
    afterLast? sep (before ++ sep :: behind) = some behind := by
  induction before with
  | nil =>
    rw [List.nil_append, afterLast?, afterLast?_of_not_mem free]
    exact if_pos rfl
  | cons u before ih => rw [List.cons_append, afterLast?, ih]

end Text

/-! ### Users and their domains -/

namespace PrincipalKind

/-- Users have a name of their own. -/
lemma ofName_eq_user_iff {t : Text} : ofName t = user ↔ t = name user := by
  constructor
  · intro named
    unfold ofName at named
    cases found : [user, serviceAccount, group, domain].find? fun kind => kind.name = t with
    | none =>
      rw [found] at named
      cases named
    | some kind =>
      rw [found, Option.getD_some] at named
      have same := List.find?_some found
      rw [named] at same
      exact (of_decide_eq_true same).symm
  · rintro rfl
    rfl

end PrincipalKind

namespace Principal

variable {member identifier domain : Text}

/-- The sign before the domain of an address. -/
abbrev atSign : CodeUnit :=
  CodeUnit.ofChar '@'

/-- A member is a user exactly if it begins with `user:`, and the rest identifies the user. -/
lemma ofMember_eq_user_iff :
    ofMember member = ⟨.user, identifier⟩ ↔ member = ("user:" : Text) ++ identifier := by
  have start : ("user:" : Text) ++ identifier =
      PrincipalKind.name .user ++ CodeUnit.ofChar ':' :: identifier := rfl
  have free : CodeUnit.ofChar ':' ∉ PrincipalKind.name .user := by decide
  rw [start]
  constructor
  · intro named
    unfold ofMember at named
    cases split : Text.splitFirst? (CodeUnit.ofChar ':') member with
    | none =>
      rw [split] at named
      cases named
    | some parts =>
      rw [split] at named
      obtain ⟨kind, rfl⟩ := Principal.mk.inj named
      rw [← PrincipalKind.ofName_eq_user_iff.mp kind]
      exact (Text.splitFirst?_eq_some_iff.mp split).1
  · rintro rfl
    rw [ofMember, Text.splitFirst?_append free]
    rfl

/-- The domain of an address is what stands behind its last at sign, if that is anything. -/
lemma emailDomain?_append (nonempty : domain ≠ []) (free : atSign ∉ domain) (localPart : Text) :
    emailDomain? (localPart ++ atSign :: domain) = some domain := by
  obtain ⟨u, rest, rfl⟩ := List.exists_cons_of_ne_nil nonempty
  rw [emailDomain?, Text.afterLast?_append free]

/-- Nothing behind the last at sign is no domain. -/
lemma emailDomain?_append_nil (localPart : Text) : emailDomain? (localPart ++ [atSign]) = none := by
  rw [emailDomain?, Text.afterLast?_append List.not_mem_nil]

/-- There is no domain without an at sign. -/
lemma emailDomain?_of_not_mem (free : atSign ∉ identifier) : emailDomain? identifier = none := by
  rw [emailDomain?, Text.afterLast?_of_not_mem free]

end Principal

namespace Allowance

open Principal

variable {a b : Allowance} {member domain identifier : Text}

/-- A domain is allowed if it is the one of the organization or one of the others. -/
lemma admits_iff : a.admits domain = true ↔ domain = a.orgDomain ∨ domain ∈ a.domains := by
  simp [admits]

/-- A user is judged by the domain of the identifier. -/
lemma permits_user_iff (a : Allowance) (identifier : Text) :
    a.permits (("user:" : Text) ++ identifier) = true ↔
      ∃ domain, emailDomain? identifier = some domain ∧ a.admits domain = true := by
  have named : ofMember (("user:" : Text) ++ identifier) = ⟨.user, identifier⟩ :=
    ofMember_eq_user_iff.mpr rfl
  rw [permits, named]
  dsimp only
  rw [if_pos rfl]
  cases emailDomain? identifier with
  | none => simp
  | some domain => simp

/-- Only a user has to leave. -/
lemma exists_user_of_not_permits (leaves : a.permits member = false) :
    ∃ identifier, member = ("user:" : Text) ++ identifier := by
  refine ⟨(ofMember member).identifier, ofMember_eq_user_iff.mp ?_⟩
  by_contra other
  have kind : (ofMember member).kind ≠ .user := by
    intro same
    rw [← same] at other
    exact other rfl
  have stays : a.permits member = true := by
    rw [permits]
    exact if_neg kind
  rw [stays] at leaves
  cases leaves

/-- A user with a domain behind the last at sign may stay if the domain is allowed. -/
lemma permits_address_iff (nonempty : domain ≠ []) (free : atSign ∉ domain) (localPart : Text) :
    a.permits (("user:" : Text) ++ (localPart ++ atSign :: domain)) = true ↔
      domain = a.orgDomain ∨ domain ∈ a.domains := by
  rw [permits_user_iff, emailDomain?_append nonempty free, ← admits_iff]
  simp

/-- A user has to leave if there is no allowed domain behind the last at sign. -/
lemma permits_user_eq_false_iff :
    a.permits (("user:" : Text) ++ identifier) = false ↔
      atSign ∉ identifier ∨
        ∃ localPart domain, identifier = localPart ++ atSign :: domain ∧ atSign ∉ domain ∧
          (domain = [] ∨ domain ≠ a.orgDomain ∧ domain ∉ a.domains) := by
  by_cases occurs : atSign ∈ identifier
  · obtain ⟨localPart, domain, rfl, free⟩ := Text.exists_last_of_mem occurs
    have judged : a.permits (("user:" : Text) ++ (localPart ++ atSign :: domain)) = false ↔
        domain = [] ∨ domain ≠ a.orgDomain ∧ domain ∉ a.domains := by
      by_cases empty : domain = []
      · subst empty
        have refused := permits_user_iff a (localPart ++ [atSign])
        rw [emailDomain?_append_nil] at refused
        simpa using refused
      · rw [← Bool.not_eq_true, permits_address_iff empty free, not_or, or_iff_right empty]
    rw [judged, or_iff_right (not_not_intro occurs)]
    constructor
    · intro strange
      exact ⟨localPart, domain, rfl, free, strange⟩
    · rintro ⟨other, last, eq, apart, strange⟩
      -- Both are what stands behind the last at sign.
      have found := Text.afterLast?_append free localPart
      rw [eq, Text.afterLast?_append apart] at found
      rwa [← Option.some.inj found]
  · have refused := permits_user_iff a identifier
    rw [emailDomain?_of_not_mem occurs] at refused
    rw [or_iff_left_of_imp fun _ => occurs]
    simpa [occurs] using refused

/-- More domains permit more members. -/
lemma permits_of_subset (more : a.orgDomain :: a.domains ⊆ b.orgDomain :: b.domains)
    (stays : a.permits member = true) : b.permits member = true := by
  by_contra leaves
  have refused : b.permits member = false := by simpa using leaves
  obtain ⟨identifier, rfl⟩ := exists_user_of_not_permits refused
  obtain ⟨domain, found, admitted⟩ := (permits_user_iff a identifier).mp stays
  have among : domain ∈ b.orgDomain :: b.domains :=
    more (List.mem_cons.mpr (admits_iff.mp admitted))
  have admittedToo : b.admits domain = true := admits_iff.mpr (List.mem_cons.mp among)
  exact leaves ((permits_user_iff b identifier).mpr ⟨domain, found, admittedToo⟩)

/-- **Who has to leave.**  A member has to leave exactly if it begins with `user:` and what stands
behind the last at sign of the rest is missing, empty, or neither the domain of the organization nor
one of the other domains.  In particular, of the users with something behind their last at sign
exactly those may stay for whom that is one of the domains, whatever stands before it. -/
theorem permits_decides (a : Allowance) :
    (∀ member, a.permits member = false ↔
      ∃ identifier, member = ("user:" : Text) ++ identifier ∧
        (atSign ∉ identifier ∨
          ∃ localPart domain, identifier = localPart ++ atSign :: domain ∧ atSign ∉ domain ∧
            (domain = [] ∨ domain ≠ a.orgDomain ∧ domain ∉ a.domains))) ∧
    ∀ localPart domain : Text, domain ≠ [] → atSign ∉ domain →
      (a.permits (("user:" : Text) ++ (localPart ++ atSign :: domain)) = true ↔
        domain = a.orgDomain ∨ domain ∈ a.domains) := by
  constructor
  · intro member
    constructor
    · intro leaves
      obtain ⟨identifier, rfl⟩ := exists_user_of_not_permits leaves
      exact ⟨identifier, rfl, permits_user_eq_false_iff.mp leaves⟩
    · rintro ⟨identifier, rfl, strange⟩
      exact permits_user_eq_false_iff.mpr strange
  · intro localPart domain nonempty free
    exact permits_address_iff nonempty free localPart

/-- A domain before the last at sign has no say, be it allowed or not. -/
theorem permits_decides_spoofed :
    let a : Allowance := ⟨"cloudorg.com", ["google.com"]⟩
    a.permits "user:guy:x@google.com@cloudorg.com.ev" = false ∧
      a.permits "user:guy:x@cloudorg.com.ev@google.com" = true := by
  intro a
  have decided := permits_decides a
  have spoofed := decided.2 "guy:x@google.com" "cloudorg.com.ev" (by decide) (by decide)
  have listed := decided.2 "guy:x@cloudorg.com.ev" "google.com" (by decide) (by decide)
  constructor
  · rw [← Bool.not_eq_true]
    exact mt spoofed.mp (by decide)
  · exact listed.mpr (by decide)

end Allowance

end PolicyWarden
