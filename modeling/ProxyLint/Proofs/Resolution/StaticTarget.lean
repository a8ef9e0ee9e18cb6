import ProxyLint.Proofs.Hosts.Class
import ProxyLint.Proofs.Hosts.Target
import ProxyLint.Proofs.Resolution.ServerGroup
import ProxyLint.Proofs.Variables.Folding

/-!
# Targets without variables

A target that is written without variables is judged by its host alone, unless
the host names a server group.  The verdict depends on whether the host is
local and on the first cloud pattern that matches it, and never on a scheme, a
port or a path.
-/

namespace ProxyLint

namespace Advice

theorem provider_infix_cloudMessage (name host provider : String)
    (target : ProxyTarget) :
    provider.toList <:+: (cloudMessage name host provider target).toList := by
  simp only [cloudMessage, String.toList_append, ToString.toString,
    List.append_assoc]
  apply (List.prefix_append provider.toList _).isInfix.trans
  apply List.IsSuffix.isInfix
  apply (List.suffix_append "' targets ".toList _).trans
  apply (List.suffix_append name.toList _).trans
  apply List.suffix_append

end Advice

namespace WrittenTarget

@[simp]
theorem toList_hostName (written : WrittenTarget) :
    written.hostName.toList = written.host :=
  String.toList_ofList

theorem hostName_nonempty (written : WrittenTarget) :
    written.hostName ≠ "" := by
  intro empty
  apply written.host_nonempty
  rw [← written.toList_hostName, empty]
  rfl

theorem isAddress_hostName (written : WrittenTarget) :
    isAddress written.hostName = true ↔ Host.IsDottedQuad written.host := by
  have absent : ':' ∉ written.hostName.toList := by
    rw [toList_hostName]
    intro member
    exact written.host_plain ':' member (by decide)
  have unbracketed : written.hostName.toList.head? ≠ some '[' := by
    rw [toList_hostName]
    exact written.host_unbracketed
  rw [isAddress_eq_isIpv4 absent unbracketed, isIpv4, ← Host.isVersionFour_iff]
  simp

/-- A host without variables is taken as it is written. -/
theorem resolveHost_hostName (written : WrittenTarget) (tree : ConfigTree)
    (id : Nat) :
    tree.resolveHost id written.hostName = .resolved written.hostName := by
  have plain : '$' ∉ written.hostName.toList := by
    rw [toList_hostName]
    intro member
    exact written.host_plain '$' member (by decide)
  exact ConfigTree.resolveHost_of_no_dollar plain written.hostName_nonempty

end WrittenTarget

namespace ConfigTree

/-- What a written target is judged as, if its host is no address and names no
server group. -/
theorem judge_written {tree : ConfigTree} {id : Nat}
    {written : WrittenTarget}
    (argument : tree.firstArgument? id =
      some (String.ofList written.characters))
    (constant : '$' ∉ written.characters)
    (network : ¬ "unix:".toList <:+: written.characters)
    (undeclared : ∀ block ∈ tree.enclosing id, ∀ group,
      ¬ tree.DeclaresGroup written.hostName block group)
    (named : ¬ Host.IsDottedQuad written.host) :
    tree.judge id = .staticTarget written.target written.hostName
      (classify written.hostName) := by
  have extracted := written.extract_eq network
  have folded := written.resolveHost_hostName tree id
  have absent := serverGroup?_eq_none undeclared
  have plain : '$' ∉ (String.ofList written.characters).toList := by
    rwa [String.toList_ofList]
  rw [← written.isAddress_hostName, Bool.not_eq_true] at named
  rw [judge_eq_judgeHost argument extracted folded,
    judgeHost_of_no_group written.hostName_nonempty named absent,
    if_neg plain]

theorem judge_written_address {tree : ConfigTree} {id : Nat}
    {written : WrittenTarget}
    (argument : tree.firstArgument? id =
      some (String.ofList written.characters))
    (network : ¬ "unix:".toList <:+: written.characters)
    (address : Host.IsDottedQuad written.host) :
    tree.judge id = .address := by
  have extracted := written.extract_eq network
  have folded := written.resolveHost_hostName tree id
  rw [← written.isAddress_hostName] at address
  rw [judge_eq_judgeHost argument extracted folded]
  simp [judgeHost, written.hostName_nonempty, address]

/-- A target without variables is reported unless its host is settled or names
a server group.  The one finding has no evidence.  It is of high severity and
names the provider if a cloud pattern matches the host, and of medium severity
otherwise. -/
theorem analyze_static_target (tree : ConfigTree) (id : Nat)
    (written : WrittenTarget)
    (argument : tree.firstArgument? id =
      some (String.ofList written.characters))
    (constant : '$' ∉ written.characters)
    (network : ¬ "unix:".toList <:+: written.characters)
    (undeclared : ∀ block ∈ tree.enclosing id, ∀ group,
      ¬ tree.DeclaresGroup written.hostName block group) :
    (Host.IsSettled written.host → tree.analyze id = []) ∧
    (¬ Host.IsSettled written.host →
      ∃ finding, tree.analyze id = [finding] ∧
        finding.primary = tree.snapshot id ∧ finding.evidence = [] ∧
        ((∃ pattern : CloudPattern, pattern.IsFirstMatch written.host ∧
            finding.severity = .high ∧
            pattern.provider.toList <:+: finding.message.toList) ∨
          ((∀ pattern ∈ CloudPattern.providers ++ CloudPattern.services,
              ¬ pattern.MatchesIn written.host) ∧
            finding.severity = .medium))) := by
  constructor
  · rintro (address | isLocal)
    · rw [analyze, judge_written_address argument network address]
      rfl
    · by_cases address : Host.IsDottedQuad written.host
      · rw [analyze, judge_written_address argument network address]
        rfl
      · rw [← written.toList_hostName] at isLocal
        rw [analyze, judge_written argument constant network undeclared
          address, classify_of_isLocal isLocal]
        rfl
  · intro unsettled
    obtain ⟨named, outside⟩ := not_or.1 unsettled
    have judged := judge_written argument constant network undeclared named
    rw [← written.toList_hostName] at outside ⊢
    cases found : cloudProvider? written.hostName.toList with
    | some provider =>
        obtain ⟨pattern, first, rfl⟩ := cloudProvider?_eq_some_iff.1 found
        rw [analyze, judged, classify_of_cloudProvider outside found]
        refine ⟨_, rfl, rfl, rfl, .inl ⟨pattern, first, rfl, ?_⟩⟩
        apply Advice.provider_infix_cloudMessage
    | none =>
        have unmatched := cloudProvider?_eq_none_iff.1 found
        rw [analyze, judged]
        rcases classify_of_no_cloudProvider outside found with known | unknown
        · rw [known]
          exact ⟨_, rfl, rfl, rfl, .inr ⟨unmatched, rfl⟩⟩
        · rw [unknown]
          exact ⟨_, rfl, rfl, rfl, .inr ⟨unmatched, rfl⟩⟩

/-- A directive that passes requests on to a cloud endpoint. -/
def portalProxy : ConfigTree where
  directives := #[
    ⟨0, "proxy_pass", ["https://Portal.HerokuApp.com:443/login"], false,
      none⟩]
  rootLine := none
  parent_le := by decide

def portalTarget : WrittenTarget where
  scheme := some ['h', 't', 't', 'p', 's']
  host := ['P', 'o', 'r', 't', 'a', 'l', '.', 'H', 'e', 'r', 'o', 'k', 'u',
    'A', 'p', 'p', '.', 'c', 'o', 'm']
  port := some ['4', '4', '3']
  rest := ['/', 'l', 'o', 'g', 'i', 'n']
  scheme_form := by simp
  host_nonempty := by simp
  host_plain := by simp
  host_unbracketed := by simp
  port_digits := by simp
  rest_starts := by simp

theorem portalProxy_reported :
    portalProxy.firstArgument? 1 =
        some (String.ofList portalTarget.characters) ∧
      ∃ finding, portalProxy.analyze 1 = [finding] ∧
        finding.severity = .high := by
  have argument : portalProxy.firstArgument? 1 =
      some (String.ofList portalTarget.characters) := by decide +kernel
  have network : ¬ "unix:".toList <:+: portalTarget.characters := by
    rw [← Text.occurs_iff_infix]
    decide +kernel
  have undeclared : ∀ block ∈ portalProxy.enclosing 1, ∀ group,
      ¬ portalProxy.DeclaresGroup portalTarget.hostName block group := by
    rintro block _ group ⟨held, kind, _⟩
    have bound := le_size_of_parent? held
    have known : ∀ group ≤ 1, portalProxy.name group ≠ "upstream" := by
      decide +kernel
    exact known group bound kind
  have named : ¬ Host.IsDottedQuad portalTarget.host := by
    rw [← Host.isVersionFour_iff]
    decide +kernel
  have outside : ¬ Host.IsLocal portalTarget.host := by
    rintro (⟨suffix, listed, ends⟩ | undotted)
    · have foreign : ∀ suffix ∈ Host.localSuffixes,
          ¬ suffix.toList <:+ portalTarget.host.map Char.toLower := by
        decide +kernel
      exact foreign suffix listed ends
    · exact undotted (by decide +kernel)
  obtain ⟨finding, analyzed, _, _, ⟨_, _, high, _⟩ | ⟨unmatched, _⟩⟩ :=
    (analyze_static_target portalProxy 1 portalTarget argument
      (by decide +kernel) network undeclared).2 (not_or.2 ⟨named, outside⟩)
  · exact ⟨argument, finding, analyzed, high⟩
  · have heroku : CloudPattern.ending ".herokuapp.com" "Heroku" ∈
        CloudPattern.providers ++ CloudPattern.services := by decide +kernel
    refine absurd (CloudPattern.occursIn_iff.1 ?_) (unmatched _ heroku)
    decide +kernel

end ConfigTree

end ProxyLint
