import Mathlib.Data.List.Pairwise
import ProxyLint.Proofs.Hosts.ClosedForm
import ProxyLint.Proofs.Hosts.Separation

/-!
# Attribution to providers

The patterns of the providers all reach the end of a host, and the ends of two
different providers exclude each other.  They exclude the endings of local
names as well.  A host that one of them matches is therefore attributed to its
provider, in whatever order the providers are tried.
-/

namespace ProxyLint

open PatternPart

namespace PatternPart

/-- Every letter of a pattern stands in the text that fits it. -/
theorem Fits.exists_variant {parts : List PatternPart} {text : List Char}
    (fits : Fits parts text) {value : Char} (required : .letter value ∈ parts) :
    ∃ character ∈ text, isVariantOf value character = true := by
  induction fits with
  | done => cases required
  | last accepted _ ih =>
      rcases List.mem_cons.1 required with rfl | later
      · exact ⟨_, List.mem_cons_self, accepted⟩
      · obtain ⟨character, member, variant⟩ := ih later
        exact ⟨character, List.mem_cons_of_mem _ member, variant⟩
  | more _ _ _ ih =>
      obtain ⟨character, member, variant⟩ := ih required
      exact ⟨character, List.mem_cons_of_mem _ member, variant⟩

theorem eq_dot_of_isVariantOf {character : Char}
    (variant : isVariantOf '.' character = true) : character = '.' := by
  simp only [isVariantOf, Bool.or_eq_true, Bool.and_eq_true,
    decide_eq_true_eq] at variant
  rcases variant with (lowered | ⟨impossible, _⟩) | ⟨impossible, _⟩
  · exact (Text.toLower_eq_iff (by decide)).1 lowered
  · exact absurd impossible (by decide)
  · exact absurd impossible (by decide)

end PatternPart

namespace CloudPattern

/-- What is read off the tables of patterns and local endings, in one go since
each of them is spelled out for this.  Any two patterns have the same provider
or different ends, and none ends like a local name. -/
theorem providers_separate :
    (providers.Pairwise fun pattern other =>
      pattern.provider = other.provider ∨
        apartAtEnd pattern.parts other.parts = true) ∧
    (∀ pattern ∈ providers,
      pattern.atEnd = true ∧ .letter '.' ∈ pattern.parts ∧
        pattern.provider ∉ services.map CloudPattern.provider) ∧
    ∀ suffix ∈ Host.localSuffixes,
      suffix.toList.map Char.toLower = suffix.toList ∧
        ∀ pattern ∈ providers,
          apartAtEnd (literally suffix) pattern.parts = true := by
  decide +kernel

variable {pattern other : CloudPattern} {host : List Char}

/-- Two patterns have the same provider, or the end of a host tells them
apart. -/
def Separate (pattern other : CloudPattern) : Prop :=
  pattern.provider = other.provider ∨
    apartAtEnd pattern.parts other.parts = true ∨
      apartAtEnd other.parts pattern.parts = true

instance : Std.Symm Separate :=
  ⟨fun _ _ => Or.imp Eq.symm Or.symm⟩

theorem separate_of_mem (listed : pattern ∈ providers)
    (otherListed : other ∈ providers) : Separate pattern other := by
  have pairwise : providers.Pairwise Separate :=
    providers_separate.1.imp (Or.imp_right .inl)
  exact pairwise.forall_of_forall (fun _ _ => .inl rfl) listed otherListed

/-- A host that a provider's pattern matches ends in a text that fits it. -/
theorem exists_fits_of_matchesIn (listed : pattern ∈ providers)
    (found : pattern.MatchesIn host) :
    ∃ before fitting, host = before ++ fitting ∧
      Fits pattern.parts fitting := by
  obtain ⟨before, fitting, after, split, fits, ends⟩ := found
  obtain rfl := ends (providers_separate.2.1 pattern listed).1
  exact ⟨before, fitting, by rwa [List.append_nil] at split, fits⟩

/-- No host ends in the ways of two providers. -/
theorem provider_eq_of_matchesIn (listed : pattern ∈ providers)
    (otherListed : other ∈ providers) (found : pattern.MatchesIn host)
    (again : other.MatchesIn host) : other.provider = pattern.provider := by
  obtain ⟨before, fitting, split, fits⟩ :=
    exists_fits_of_matchesIn listed found
  obtain ⟨otherBefore, otherFitting, otherSplit, otherFits⟩ :=
    exists_fits_of_matchesIn otherListed again
  have ends := split.symm.trans otherSplit
  rcases separate_of_mem listed otherListed with same | separate | separate
  · exact same.symm
  · exact absurd ends (not_fits_of_apartAtEnd separate fits otherFits)
  · exact absurd ends.symm (not_fits_of_apartAtEnd separate otherFits fits)

/-- The end of a provider's host is not the one of a local name. -/
theorem not_hasLocalSuffix_of_matchesIn (listed : pattern ∈ providers)
    (found : pattern.MatchesIn (host.map Char.toLower)) :
    ¬ Host.HasLocalSuffix host := by
  rintro ⟨suffix, localListed, before, ends⟩
  obtain ⟨otherBefore, fitting, split, fits⟩ :=
    exists_fits_of_matchesIn listed found
  obtain ⟨small, separate⟩ := providers_separate.2.2 suffix localListed
  exact not_fits_of_apartAtEnd (separate pattern listed)
    (fits_map_letter small) fits (ends.trans split)

theorem matchesIn_map_toLower :
    pattern.MatchesIn (host.map Char.toLower) ↔ pattern.MatchesIn host := by
  rw [← occursIn_iff, ← occursIn_iff, occursIn_map_toLower]

theorem dotted_of_matchesIn (listed : pattern ∈ providers)
    (found : pattern.MatchesIn host) : '.' ∈ host := by
  obtain ⟨before, fitting, rfl, fits⟩ := exists_fits_of_matchesIn listed found
  obtain ⟨character, member, variant⟩ :=
    fits.exists_variant (providers_separate.2.1 pattern listed).2.1
  obtain rfl := eq_dot_of_isVariantOf variant
  exact List.mem_append_right before member

/-- The provider of the first pattern of a list that matches. -/
def firstProvider? (patterns : List CloudPattern) (host : List Char) :
    Option String :=
  (patterns.find? fun pattern => pattern.occursIn host).map
    CloudPattern.provider

/-- The order in which the providers are tried does not matter to a host that
one of them matches. -/
theorem firstProvider?_of_matchesIn {order : List CloudPattern}
    (reordered : order.Perm providers) (listed : pattern ∈ providers)
    (found : pattern.MatchesIn host) :
    firstProvider? (order ++ services) host = some pattern.provider := by
  cases first : order.find? fun pattern => pattern.occursIn host with
  | none =>
      exact absurd (occursIn_iff.2 found)
        (List.find?_eq_none.1 first pattern (reordered.mem_iff.2 listed))
  | some other =>
      have occurs := List.find?_some first
      have again : other.MatchesIn host := occursIn_iff.1 occurs
      have otherListed : other ∈ providers :=
        reordered.mem_iff.1 (List.mem_of_find?_eq_some first)
      rw [firstProvider?, List.find?_append, first, Option.some_or,
        Option.map_some,
        provider_eq_of_matchesIn listed otherListed found again]

/-- The provider of a host does not depend on the order of the providers. -/
theorem firstProvider?_of_perm {order : List CloudPattern}
    (reordered : order.Perm providers) (host : List Char) :
    firstProvider? (order ++ services) host = cloudProvider? host := by
  by_cases matched : ∃ pattern ∈ providers, pattern.MatchesIn host
  · obtain ⟨pattern, listed, found⟩ := matched
    rw [firstProvider?_of_matchesIn reordered listed found]
    exact (firstProvider?_of_matchesIn (.refl _) listed found).symm
  · have unmatched : ∀ pattern ∈ providers, ¬ pattern.occursIn host := by
      intro pattern listed occurs
      exact matched ⟨pattern, listed, occursIn_iff.1 occurs⟩
    have passed : (order.find? fun pattern => pattern.occursIn host) = none :=
      List.find?_eq_none.2 fun pattern member =>
        unmatched pattern (reordered.mem_iff.1 member)
    rw [firstProvider?, cloudProvider?, List.find?_append, List.find?_append,
      passed, List.find?_eq_none.2 unmatched]

end CloudPattern

open CloudPattern

/-- The rules of classification with another list of cloud patterns. -/
def classificationRulesWith (patterns : List CloudPattern) :
    List ClassificationRule :=
  classificationRules.map fun rule =>
    if rule.name = "cloud-pattern" then
      { rule with
        apply := fun host => (firstProvider? patterns host).map .cloud }
    else rule

theorem classificationRulesWith_of_perm {order : List CloudPattern}
    (reordered : order.Perm providers) :
    classificationRulesWith (order ++ services) = classificationRules := by
  simp only [classificationRulesWith, firstProvider?_of_perm reordered]
  rfl

/-- A host that a provider's pattern matches is attributed to the provider. -/
theorem classify_of_provider {host : String} {pattern : CloudPattern}
    (listed : pattern ∈ providers)
    (found : pattern.MatchesIn (host.toList.map Char.toLower)) :
    classify host = .cloud pattern.provider := by
  have foreign := not_hasLocalSuffix_of_matchesIn listed found
  have dotted := dotted_of_matchesIn listed (matchesIn_map_toLower.1 found)
  refine classify_of_cloudProvider
    (not_or.2 ⟨foreign, not_not_intro dotted⟩) ?_
  rw [← cloudProvider?_map_toLower]
  exact firstProvider?_of_matchesIn (.refl _) listed found

/-- What is attributed to a provider does not depend on the other rules, nor on
the order in which the providers are tried, and a kind of service is named only
if there is no provider. -/
theorem classify_provider_unambiguous (host : String) :
    (∀ pattern ∈ providers,
      pattern.MatchesIn (host.toList.map Char.toLower) →
        classify host = .cloud pattern.provider ∧
        Host.localSuffix (host.toList.map Char.toLower) = none ∧
        Host.singleLabel (host.toList.map Char.toLower) = none ∧
        ∀ other ∈ providers,
          other.MatchesIn (host.toList.map Char.toLower) →
            other.provider = pattern.provider) ∧
    (∀ order : List CloudPattern, order.Perm providers →
      classifyBy (classificationRulesWith (order ++ services)) host =
        classify host) ∧
    (∀ provider ∈ services.map CloudPattern.provider,
      classify host = .cloud provider → ∀ pattern ∈ providers,
        ¬ pattern.MatchesIn (host.toList.map Char.toLower)) := by
  refine ⟨?_, ?_, ?_⟩
  · intro pattern listed found
    have foreign := not_hasLocalSuffix_of_matchesIn listed found
    have dotted := dotted_of_matchesIn listed (matchesIn_map_toLower.1 found)
    refine ⟨classify_of_provider listed found,
      Host.localSuffix_eq_none foreign, ?_, ?_⟩
    · rw [Host.singleLabel_map_toLower, if_pos dotted]
    · intro other otherListed again
      exact provider_eq_of_matchesIn listed otherListed found again
  · intro order reordered
    rw [classificationRulesWith_of_perm reordered]
    rfl
  · intro provider service cloud pattern listed found
    have attributed := (classify_of_provider listed found).symm.trans cloud
    obtain rfl := HostClass.cloud.inj attributed
    exact (providers_separate.2.1 pattern listed).2.2 service

/-- Letters and digits outside ASCII are attributed like the plain ones. -/
theorem classify_bucket_in_other_script :
    (regional ".s3." ".amazonaws.com" "AWS S3").MatchesIn
        ("Bucket.ſ3.eu-west-٣.AMAZONAWS.com".toList.map
          Char.toLower) ∧
      classify "Bucket.ſ3.eu-west-٣.AMAZONAWS.com" =
        .cloud "AWS S3" := by
  have found : (regional ".s3." ".amazonaws.com" "AWS S3").MatchesIn
      ("Bucket.ſ3.eu-west-٣.AMAZONAWS.com".toList.map
        Char.toLower) := occursIn_iff.1 (by decide +kernel)
  have listed : regional ".s3." ".amazonaws.com" "AWS S3" ∈ providers := by
    decide +kernel
  exact ⟨found, ((classify_provider_unambiguous
    "Bucket.ſ3.eu-west-٣.AMAZONAWS.com").1 _ listed found).1⟩

end ProxyLint
