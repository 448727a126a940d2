import PolicyWarden.Proofs.Allowance
import PolicyWarden.Proofs.Configuration.Acceptance

/-!
# The effect of an allowed domain

Members are judged by the domain of an address, and the domains that an address can have are exactly
the texts that are not empty and have no at sign in them (`Principal.exists_emailDomain?_iff`).  The
format of configurations asks this much of an allowed domain, and that there are no blanks in it.
So whatever a configuration allows lets somebody stay, and a text that is refused for being empty or
for an at sign could not have changed what becomes of any member.
-/

namespace PolicyWarden

/-! ### Domains of addresses -/

namespace Principal

variable {identifier domain : Text}

/-- The domain of an identifier is what stands behind its last at sign, if that is anything. -/
lemma emailDomain?_eq_some_iff :
    emailDomain? identifier = some domain ↔
      domain ≠ [] ∧ atSign ∉ domain ∧ ∃ localPart, identifier = localPart ++ atSign :: domain := by
  constructor
  · intro found
    by_cases occurs : atSign ∈ identifier
    · obtain ⟨localPart, behind, rfl, free⟩ := Text.exists_last_of_mem occurs
      by_cases empty : behind = []
      · rw [empty, emailDomain?_append_nil] at found
        cases found
      · rw [emailDomain?_append empty free] at found
        obtain rfl := Option.some.inj found
        exact ⟨empty, free, localPart, rfl⟩
    · rw [emailDomain?_of_not_mem occurs] at found
      cases found
  · rintro ⟨nonempty, free, localPart, rfl⟩
    exact emailDomain?_append nonempty free localPart

/-- A text is the domain of some identifier exactly if it is not empty and has no at sign in it. -/
lemma exists_emailDomain?_iff :
    (∃ identifier, emailDomain? identifier = some domain) ↔ domain ≠ [] ∧ atSign ∉ domain := by
  constructor
  · rintro ⟨identifier, found⟩
    obtain ⟨nonempty, free, -⟩ := emailDomain?_eq_some_iff.mp found
    exact ⟨nonempty, free⟩
  · rintro ⟨nonempty, free⟩
    exact ⟨_, emailDomain?_append nonempty free []⟩

end Principal

namespace Allowance

open Principal

variable {a b : Allowance} {domain : Text}

/-! ### One more domain -/

/-- The second allowance is the first one with a domain added to its domains. -/
structure Adds (a : Allowance) (domain : Text) (b : Allowance) : Prop where
  orgDomain : b.orgDomain = a.orgDomain
  domains : ∀ other, other ∈ b.domains ↔ other = domain ∨ other ∈ a.domains

/-- Another domain is judged as it was before the addition. -/
lemma Adds.admits_iff_of_ne (adds : a.Adds domain b) {other : Text} (apart : other ≠ domain) :
    b.admits other = true ↔ a.admits other = true := by
  rw [admits_iff, admits_iff, adds.orgDomain, adds.domains, or_iff_right apart]

/-- What is no domain of an identifier makes no difference to any member. -/
lemma Adds.permits_eq (adds : a.Adds domain b)
    (strange : ∀ identifier, emailDomain? identifier ≠ some domain) (member : Text) :
    b.permits member = a.permits member := by
  have judged (identifier : Text) : b.permits (("user:" : Text) ++ identifier) = true ↔
      a.permits (("user:" : Text) ++ identifier) = true := by
    rw [permits_user_iff, permits_user_iff]
    refine exists_congr fun other => and_congr_right fun found => ?_
    have apart : other ≠ domain := by
      rintro rfl
      exact strange identifier found
    exact adds.admits_iff_of_ne apart
  rw [Bool.eq_iff_iff]
  -- Whoever is not a user may stay under any allowance.
  by_cases user : ∃ identifier, member = ("user:" : Text) ++ identifier
  · obtain ⟨identifier, rfl⟩ := user
    exact judged identifier
  · have stays (c : Allowance) : c.permits member = true := by
      by_contra leaves
      exact user (exists_user_of_not_permits (Bool.eq_false_iff.mpr leaves))
    rw [stays a, stays b]

/-- What is the domain of an identifier makes a difference to a member, if it was not allowed. -/
lemma Adds.exists_permits_ne (adds : a.Adds domain b) (nonempty : domain ≠ [])
    (free : atSign ∉ domain) (foreign : domain ≠ a.orgDomain) (unlisted : domain ∉ a.domains) :
    ∃ member, a.permits member = false ∧ b.permits member = true := by
  refine ⟨("user:" : Text) ++ ([] ++ atSign :: domain), ?_, ?_⟩
  · rw [← Bool.not_eq_true, permits_address_iff nonempty free, not_or]
    exact ⟨foreign, unlisted⟩
  · rw [permits_address_iff nonempty free]
    exact .inr ((adds.domains domain).mpr (.inl rfl))

/-- **Allowed domains have an effect.**  If a domain stands among the allowed domains of a
configuration that was read, then every allowance with that domain lets users with an address there
stay, whatever stands before it and whatever the domain of the organization is.  If a text is empty
or has an at sign in it, then adding it to the domains of an allowance changes nothing for any
member; and any other text that is added to the domains, without being allowed before, changes
something. -/
theorem allowed_domains_have_effect :
    (∀ document c, Configuration.ofJson (some document) = .ok c →
      ∀ domain ∈ c.allowDomains, ∀ (a : Allowance) (localPart : Text), domain ∈ a.domains →
        a.permits (("user:" : Text) ++ localPart ++ "@" ++ domain) = true) ∧
      (∀ domain : Text, domain = [] ∨ atSign ∈ domain →
        ∀ a b : Allowance, a.Adds domain b → ∀ member, b.permits member = a.permits member) ∧
      ∀ domain : Text, domain ≠ [] → atSign ∉ domain →
        ∀ a b : Allowance, a.Adds domain b → domain ≠ a.orgDomain → domain ∉ a.domains →
          ∃ member, a.permits member = false ∧ b.permits member = true := by
  refine ⟨?_, ?_, ?_⟩
  · intro document c reached domain listed a localPart allowed
    obtain ⟨-, -, valid⟩ := Configuration.ofJson_eq_ok_iff.mp reached
    have sound := valid.allowDomains domain listed
    have address : ("user:" : Text) ++ localPart ++ "@" ++ domain =
        ("user:" : Text) ++ (localPart ++ atSign :: domain) := by
      simp only [List.append_assoc]
      rfl
    rw [address, permits_address_iff sound.nonempty sound.noAtSign]
    exact .inr allowed
  · intro domain refused a b adds member
    refine adds.permits_eq (fun identifier found => ?_) member
    obtain ⟨nonempty, free⟩ := exists_emailDomain?_iff.mp ⟨identifier, found⟩
    rcases refused with empty | occurs
    · exact nonempty empty
    · exact free occurs
  · intro domain nonempty free a b adds foreign unlisted
    exact adds.exists_permits_ne nonempty free foreign unlisted

/-- A partner's domain that was read lets its users stay, even with at signs before it; a domain
with an at sign in it would not let in whom it seems to name; and one with a blank in it would have
had an effect. -/
theorem allowed_domains_have_effect_partner :
    let document : Json := .object [("AllowDomains", .array [.text "b.org"])]
    let a : Allowance := ⟨"c.org", ["b.org"]⟩
    Configuration.ofJson (some document) = .ok ⟨["b.org"], none⟩ ∧
      a.permits "user:x@y:z@b.org" = true ∧
      (⟨"c.org", ["x@d.org", "b.org"]⟩ : Allowance).permits "user:x@d.org" =
        a.permits "user:x@d.org" ∧
      ∃ member, a.permits member = false ∧
        (⟨"c.org", ["d org", "b.org"]⟩ : Allowance).permits member = true := by
  intro document a
  have reached : Configuration.ofJson (some document) = .ok ⟨["b.org"], none⟩ := by
    decide +kernel
  have adds (domain : Text) : a.Adds domain ⟨"c.org", domain :: a.domains⟩ :=
    ⟨rfl, fun _ => List.mem_cons⟩
  obtain ⟨effective, dead, alive⟩ := allowed_domains_have_effect
  refine ⟨reached, ?_, ?_, ?_⟩
  · exact effective document _ reached "b.org" (by decide) a "x@y:z" (by decide)
  · exact dead "x@d.org" (.inr (by decide)) a _ (adds _) "user:x@d.org"
  · exact alive "d org" (by decide) (by decide) a _ (adds _) (by decide) (by decide)

end Allowance

end PolicyWarden
