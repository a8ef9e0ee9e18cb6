import ProxyLint.Hosts.Class
import ProxyLint.Proofs.Hosts.Address
import ProxyLint.Proofs.Hosts.CloudEndpoint

/-!
# How hosts are classified

A host name is internal if it ends like one or has a single label, a cloud
endpoint if a pattern matches it, and a public or unknown name otherwise.
-/

namespace ProxyLint

namespace Host

/-- The host ends like the name of a local network, in any letter case. -/
def HasLocalSuffix (host : List Char) : Prop :=
  ∃ suffix ∈ localSuffixes, suffix.toList <:+ host.map Char.toLower

/-- The host needs no look-up outside the local network. -/
def IsLocal (host : List Char) : Prop :=
  HasLocalSuffix host ∨ '.' ∉ host

/-- The host is an address of version four or the name of a local host. -/
def IsSettled (host : List Char) : Prop :=
  IsDottedQuad host ∨ IsLocal host

theorem localSuffix_of_hasLocalSuffix {host : List Char}
    (ending : HasLocalSuffix host) :
    localSuffix (host.map Char.toLower) = some .internal := by
  obtain ⟨suffix, listed, ends⟩ := ending
  rw [localSuffix, if_pos]
  exact List.any_eq_true.2
    ⟨suffix, listed, List.isSuffixOf_iff_suffix.2 ends⟩

theorem localSuffix_eq_none {host : List Char}
    (otherwise : ¬ HasLocalSuffix host) :
    localSuffix (host.map Char.toLower) = none := by
  rw [localSuffix, if_neg]
  intro ending
  obtain ⟨suffix, listed, ends⟩ := List.any_eq_true.1 ending
  exact otherwise ⟨suffix, listed, List.isSuffixOf_iff_suffix.1 ends⟩

theorem singleLabel_map_toLower (host : List Char) :
    singleLabel (host.map Char.toLower) =
      if '.' ∈ host then none else some .internal := by
  have dot : ∀ character : Char, character.toLower = '.' ↔ character = '.' :=
    fun _ => Text.toLower_eq_iff (by decide)
  have dots : '.' ∈ host.map Char.toLower ↔ '.' ∈ host := by
    simp [dot]
  simp [singleLabel, dots]

theorem compoundSuffix_cases (host : List Char) :
    compoundSuffix host = none ∨ compoundSuffix host = some .publicName := by
  unfold compoundSuffix
  split
  · split <;> simp
  · exact .inl rfl

theorem publicSuffix_cases (host : List Char) :
    publicSuffix host = none ∨ publicSuffix host = some .publicName := by
  unfold publicSuffix
  split
  · split <;> simp
  · exact .inl rfl

end Host

open Host

theorem classify_of_isLocal {host : String}
    (isLocal : IsLocal host.toList) : classify host = .internal := by
  by_cases ending : HasLocalSuffix host.toList
  · simp [classify, classificationRules, localSuffix_of_hasLocalSuffix ending]
  · have undotted : '.' ∉ host.toList := isLocal.resolve_left ending
    simp [classify, classificationRules, localSuffix_eq_none ending,
      singleLabel_map_toLower, undotted]

theorem classify_of_cloudProvider {host provider : String}
    (outside : ¬ IsLocal host.toList)
    (found : cloudProvider? host.toList = some provider) :
    classify host = .cloud provider := by
  obtain ⟨foreign, dotted⟩ := not_or.1 outside
  have labels : '.' ∈ host.toList := Classical.not_not.1 dotted
  simp [classify, classificationRules, localSuffix_eq_none foreign,
    singleLabel_map_toLower, labels, cloudPattern, cloudProvider?_map_toLower,
    found]

/-- Whether the ending of a plain host is known or not does not matter to what
is reported. -/
theorem classify_of_no_cloudProvider {host : String}
    (outside : ¬ IsLocal host.toList)
    (absent : cloudProvider? host.toList = none) :
    classify host = .publicName ∨ classify host = .unknown := by
  obtain ⟨foreign, dotted⟩ := not_or.1 outside
  have labels : '.' ∈ host.toList := Classical.not_not.1 dotted
  have compound := compoundSuffix_cases (host.toList.map Char.toLower)
  have single := publicSuffix_cases (host.toList.map Char.toLower)
  rcases compound with compound | compound <;>
    rcases single with single | single <;>
    simp [classify, classificationRules, localSuffix_eq_none foreign,
      singleLabel_map_toLower, labels, cloudPattern,
      cloudProvider?_map_toLower, absent, compound, single]

end ProxyLint
