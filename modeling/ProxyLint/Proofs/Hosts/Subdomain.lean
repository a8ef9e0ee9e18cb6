import Mathlib.Data.List.Infix
import ProxyLint.Proofs.Hosts.Attribution

/-!
# Classes of subdomains

A host with a dot keeps its ending when it is extended on the left.  Its class
then stays the same, unless a cloud pattern comes to match it.  Only the ending
of names inside a cluster is longer than a name with a dot that does not have a
local ending itself.
-/

namespace ProxyLint

namespace Host

theorem HasLocalSuffix.append {host : List Char} (ending : HasLocalSuffix host)
    (front : List Char) : HasLocalSuffix (front ++ host) := by
  obtain ⟨suffix, listed, ends⟩ := ending
  refine ⟨suffix, listed, ends.trans ?_⟩
  rw [List.map_append]
  exact List.suffix_append _ _

theorem hasPublicLabel_append {host : List Char} (dotted : '.' ∈ host)
    (front : List Char) :
    HasPublicLabel (front ++ host) ↔ HasPublicLabel host := by
  rw [HasPublicLabel, HasPublicLabel, List.map_append,
    lastLabel_append_of_dotted (dot_mem_map_toLower dotted)]

/-- The ending of names inside a cluster, which is local while its last label
is not. -/
def clusterSuffix : String := ".svc.cluster"

/-- A part of a local suffix that has a dot ends locally itself, with one
exception. -/
theorem localSuffix_tails : ∀ suffix ∈ localSuffixes,
    ∀ ending ∈ suffix.toList.tails, '.' ∈ ending →
      (localSuffix ending).isSome = true ∨ suffix = clusterSuffix := by
  decide +kernel

theorem clusterSuffix_unlisted :
    clusterSuffix ∈ localSuffixes ∧
      (∀ pattern ∈ CloudPattern.services,
        pattern.occursIn clusterSuffix.toList = false) ∧
      String.ofList (lastLabel clusterSuffix.toList) ∉ publicSuffixes := by
  decide +kernel

end Host

open Host

theorem CloudPattern.MatchesIn.append {pattern : CloudPattern}
    {host : List Char} (found : pattern.MatchesIn host) (front : List Char) :
    pattern.MatchesIn (front ++ host) := by
  obtain ⟨before, fitting, after, rfl, fits, ends⟩ := found
  exact ⟨front ++ before, fitting, after,
    (List.append_assoc front before _).symm, fits, ends⟩

theorem cloudProvider?_append {host : List Char} (front : List Char)
    (found : cloudProvider? host ≠ none) :
    ∃ provider, cloudProvider? (front ++ host) = some provider := by
  refine Option.ne_none_iff_exists'.1 fun absent => found ?_
  rw [cloudProvider?_eq_none_iff] at absent ⊢
  exact fun pattern listed matched =>
    absent pattern listed (matched.append front)

namespace Host

theorem cloudProvider?_clusterSuffix :
    cloudProvider? clusterSuffix.toList = none := by
  obtain ⟨isLocal, unserved, _⟩ := clusterSuffix_unlisted
  rw [← cloudProvider?_map_toLower, cloudProvider?_eq_none_iff]
  intro pattern listed found
  rcases List.mem_append.1 listed with provider | service
  · obtain ⟨small, _⟩ :=
      CloudPattern.providers_separate.2.2 clusterSuffix isLocal
    refine CloudPattern.not_hasLocalSuffix_of_matchesIn provider found ?_
    exact ⟨clusterSuffix, isLocal, by rw [small]⟩
  · rw [CloudPattern.matchesIn_map_toLower, ← CloudPattern.occursIn_iff,
      unserved pattern service] at found
    cases found

/-- A local suffix of an extended host is one of the host, or the host is cut
out of the suffix of names inside a cluster. -/
theorem hasLocalSuffix_of_append {front host : List Char}
    (dotted : '.' ∈ host) (ending : HasLocalSuffix (front ++ host)) :
    HasLocalSuffix host ∨
      (clusterSuffix.toList <:+ (front ++ host).map Char.toLower ∧
        cloudProvider? host = none ∧ ¬ HasPublicLabel host) := by
  obtain ⟨suffix, listed, ends⟩ := ending
  have labels := dot_mem_map_toLower dotted
  have inner : host.map Char.toLower <:+ (front ++ host).map Char.toLower := by
    rw [List.map_append]
    exact List.suffix_append _ _
  rcases List.suffix_or_suffix_of_suffix ends inner with within | beyond
  · exact .inl ⟨suffix, listed, within⟩
  · rcases localSuffix_tails suffix listed _ ((List.mem_tails _ _).2 beyond)
      labels with known | rfl
    · left
      by_contra foreign
      rw [localSuffix_eq_none foreign] at known
      cases known
    · obtain ⟨before, whole⟩ := beyond
      refine .inr ⟨ends, ?_, ?_⟩
      · by_contra found
        rw [← cloudProvider?_map_toLower] at found
        obtain ⟨provider, longer⟩ := cloudProvider?_append before found
        rw [whole, cloudProvider?_clusterSuffix] at longer
        cases longer
      · rw [HasPublicLabel, ← lastLabel_append_of_dotted labels before, whole]
        exact clusterSuffix_unlisted.2.2

end Host

/-- An extended host is classified like the host that ends it, unless it comes
to end like a name inside a cluster or to match a cloud pattern. -/
theorem classify_append_cases {host : String} (dotted : '.' ∈ host.toList)
    (front : String) :
    classify (front ++ host) = classify host ∨
    (classify host = .unknown ∧ classify (front ++ host) = .internal ∧
      clusterSuffix.toList <:+ (front ++ host).toList.map Char.toLower) ∨
    (classify host ≠ .internal ∧
      ∃ provider, classify (front ++ host) = .cloud provider) := by
  have labels : '.' ∈ (front ++ host).toList := by simp [dotted]
  have same := hasPublicLabel_append dotted front.toList
  rw [← String.toList_append] at same
  have extended := classify_cases (front ++ host)
  rcases classify_cases host with ⟨settled, known⟩ | ⟨outside, _⟩
  -- A local ending of the host is one of the extended host.
  · have isLocal : IsLocal (front ++ host).toList := by
      rw [String.toList_append]
      exact .inl ((settled.resolve_right (not_not_intro dotted)).append _)
    exact .inl ((classify_of_isLocal isLocal).trans known.symm)
  · have foreign : classify host ≠ .internal :=
      fun internal => outside (classify_eq_internal_iff.1 internal)
    rcases extended with ⟨isLocal, internal⟩ | ⟨_,
      ⟨provider, _, cloud⟩ | ⟨absent, other⟩⟩
    -- A local ending that the host does not have is the one of a cluster.
    · have ending : HasLocalSuffix (front.toList ++ host.toList) := by
        rw [← String.toList_append]
        exact isLocal.resolve_right (not_not_intro labels)
      rcases hasLocalSuffix_of_append dotted ending with within |
        ⟨ends, unmatched, unlisted⟩
      · exact absurd (.inl within) outside
      · rw [← String.toList_append] at ends
        exact .inr (.inl ⟨classify_eq_unknown_iff.2
          ⟨outside, unmatched, unlisted⟩, internal, ends⟩)
    · exact .inr (.inr ⟨foreign, provider, cloud⟩)
    -- No pattern matches the extended host, so none matches the host, and the
    -- last label is the same.
    · have unmatched : cloudProvider? host.toList = none := by
        by_contra found
        obtain ⟨provider, longer⟩ := cloudProvider?_append front.toList found
        rw [← String.toList_append, absent] at longer
        cases longer
      rcases other with ⟨listed, publicName⟩ | ⟨unlisted, unknown⟩
      · exact .inl (publicName.trans (classify_eq_publicName_iff.2
          ⟨outside, unmatched, same.1 listed⟩).symm)
      · exact .inl (unknown.trans (classify_eq_unknown_iff.2
          ⟨outside, unmatched, fun listed => unlisted (same.2 listed)⟩).symm)

/-- What the class of a host says about its subdomains, and what it takes for a
host to be public. -/
theorem classify_subdomain_law (front host : String) :
    ('.' ∈ host.toList →
      (classify host = .internal → classify (front ++ host) = .internal) ∧
      ((∃ provider, classify host = .cloud provider) →
        ∃ provider, classify (front ++ host) = .cloud provider) ∧
      (classify host = .publicName →
        classify (front ++ host) = .publicName ∨
          ∃ provider, classify (front ++ host) = .cloud provider) ∧
      (classify host = .unknown →
        classify (front ++ host) = .unknown ∨
        (∃ provider, classify (front ++ host) = .cloud provider) ∨
        (classify (front ++ host) = .internal ∧
          ".svc.cluster".toList <:+
            (front ++ host).toList.map Char.toLower))) ∧
    (classify host = .publicName ↔
      classify host ≠ .internal ∧
      (∀ pattern ∈ CloudPattern.providers ++ CloudPattern.services,
        ¬ pattern.MatchesIn (host.toList.map Char.toLower)) ∧
      String.ofList (lastLabel (host.toList.map Char.toLower)) ∈
        publicSuffixes) ∧
    classifyBy (classificationRules.filter fun rule =>
      rule.name != "compound-tld") host = classify host := by
  refine ⟨fun dotted => ?_, ?_, classifyBy_without_compoundSuffix host⟩
  · rcases classify_append_cases dotted front with same |
      ⟨unknown, internal, ends⟩ | ⟨foreign, provider, cloud⟩
    · rw [same]
      exact ⟨id, id, .inl, .inl⟩
    · rw [unknown, internal]
      refine ⟨fun _ => rfl, ?_, ?_, fun _ => .inr (.inr ⟨rfl, ends⟩)⟩
      · rintro ⟨provider, impossible⟩
        cases impossible
      · intro impossible
        cases impossible
    · exact ⟨fun internal => absurd internal foreign,
        fun _ => ⟨provider, cloud⟩, fun _ => .inr ⟨provider, cloud⟩,
        fun _ => .inr (.inl ⟨provider, cloud⟩)⟩
  · rw [← cloudProvider?_eq_none_iff, cloudProvider?_map_toLower, Ne,
      classify_eq_internal_iff]
    exact classify_eq_publicName_iff

/-- The name of a cluster itself is unknown, and the names in it are local. -/
theorem classify_in_cluster :
    classify "Svc.CLUSTER" = .unknown ∧
      (classify "Web.Svc.CLUSTER" = .unknown ∨
        (∃ provider, classify "Web.Svc.CLUSTER" = .cloud provider) ∨
        (classify "Web.Svc.CLUSTER" = .internal ∧
          ".svc.cluster".toList <:+
            "Web.Svc.CLUSTER".toList.map Char.toLower)) ∧
      classify "Web.Svc.CLUSTER" = .internal := by
  have suffixed : ∃ suffix ∈ localSuffixes, suffix.toList <:+
      "Web.Svc.CLUSTER".toList.map Char.toLower := by decide +kernel
  have foreign : ¬ ∃ suffix ∈ localSuffixes, suffix.toList <:+
      "Svc.CLUSTER".toList.map Char.toLower := by decide +kernel
  have unknown : classify "Svc.CLUSTER" = .unknown := by
    have dotted : '.' ∈ "Svc.CLUSTER".toList := by decide
    obtain ⟨_, unmatched, unlisted⟩ :=
      (@hasLocalSuffix_of_append "Web.".toList _ dotted suffixed).resolve_left
        foreign
    exact classify_eq_unknown_iff.2
      ⟨not_or.2 ⟨foreign, not_not_intro dotted⟩, unmatched, unlisted⟩
  exact ⟨unknown,
    ((classify_subdomain_law "Web." "Svc.CLUSTER").1 (by decide)).2.2.2 unknown,
    classify_of_isLocal (.inl suffixed)⟩

end ProxyLint
