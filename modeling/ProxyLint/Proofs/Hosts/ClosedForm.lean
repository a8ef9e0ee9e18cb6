import Mathlib.Data.List.DropRight
import ProxyLint.Proofs.Hosts.Class

/-!
# Classes of hosts in closed form

The rules of classification are tried one after the other, but what they come
to can be said at once.  A host is internal if it is local, a cloud endpoint if
a pattern matches it, and otherwise public exactly if its last label is a known
domain.  The rule about the last two labels never decides anything that the
rule about the last one does not.
-/

namespace ProxyLint

namespace Host

/-- What stands behind the last dot of a host. -/
def lastLabel (host : List Char) : List Char :=
  host.rtakeWhile fun character => character != '.'

/-- The last label is a known domain, in any letter case. -/
def HasPublicLabel (host : List Char) : Prop :=
  String.ofList (lastLabel (host.map Char.toLower)) ∈ publicSuffixes

theorem lastLabel_append {label : List Char} (undotted : '.' ∉ label)
    (front : List Char) : lastLabel (front ++ '.' :: label) = label := by
  have inside : ∀ character ∈ label.reverse, (character != '.') = true := by
    intro character member
    rw [bne_iff_ne]
    rintro rfl
    exact undotted (List.mem_reverse.1 member)
  have stops : ∀ character ∈ ('.' :: front.reverse).head?,
      (character != '.') = false := by
    intro character first
    obtain rfl := Option.some.inj first
    rfl
  have backwards : (front ++ '.' :: label).reverse =
      label.reverse ++ '.' :: front.reverse := by simp
  rw [lastLabel, List.rtakeWhile, backwards,
    (Text.run_of_append inside stops).1, List.reverse_reverse]

/-- A host with a dot is cut at its last one. -/
theorem exists_lastLabel {host : List Char} (dotted : '.' ∈ host) :
    ∃ front, host = front ++ '.' :: lastLabel host ∧
      '.' ∉ lastLabel host := by
  obtain ⟨label, front, backwards, undotted⟩ :=
    List.eq_append_cons_of_mem (List.mem_reverse.2 dotted)
  have whole : host = front.reverse ++ '.' :: label.reverse := by
    rw [← List.reverse_reverse host, backwards]
    simp
  have absent : '.' ∉ label.reverse := by simpa using undotted
  have label_eq : lastLabel host = label.reverse := by
    rw [whole, lastLabel_append absent]
  exact ⟨front.reverse, by rw [label_eq, ← whole], by rwa [label_eq]⟩

/-- The last label does not change when a host is extended on the left. -/
theorem lastLabel_append_of_dotted {host : List Char} (dotted : '.' ∈ host)
    (front : List Char) : lastLabel (front ++ host) = lastLabel host := by
  obtain ⟨inner, whole, undotted⟩ := exists_lastLabel dotted
  have longer : front ++ host =
      (front ++ inner) ++ '.' :: lastLabel host := by
    rw [List.append_assoc, ← whole]
  rw [longer, lastLabel_append undotted]

theorem pieces_append_cons (front rest : List Char) (separator : Char) :
    Text.pieces separator (front ++ separator :: rest) =
      Text.pieces separator front ++ Text.pieces separator rest := by
  induction front with
  | nil => simp [Text.pieces]
  | cons character later ih =>
      rw [List.cons_append, Text.pieces, Text.pieces]
      by_cases separates : character = separator
      · rw [if_pos separates, if_pos separates, ih, List.cons_append]
      · rw [if_neg separates, if_neg separates, ih]
        cases cut : Text.pieces separator later with
        | nil => exact absurd cut (Text.pieces_ne_nil separator later)
        | cons piece others => rfl

/-- The labels of a host with a dot, the last one first. -/
theorem exists_reverse_pieces {host : List Char} (dotted : '.' ∈ host) :
    ∃ second others, (Text.pieces '.' host).reverse =
      lastLabel host :: second :: others := by
  obtain ⟨front, whole, undotted⟩ := exists_lastLabel dotted
  have cut : Text.pieces '.' host =
      Text.pieces '.' front ++ [lastLabel host] := by
    conv_lhs => rw [whole]
    rw [pieces_append_cons, Text.pieces_of_not_mem undotted]
  obtain ⟨second, others, backwards⟩ := List.exists_cons_of_ne_nil
    (List.reverse_ne_nil_iff.2 (Text.pieces_ne_nil '.' front))
  exact ⟨second, others, by rw [cut, List.reverse_concat, backwards]⟩

theorem publicSuffix_eq {host : List Char} (dotted : '.' ∈ host) :
    publicSuffix host =
      if String.ofList (lastLabel host) ∈ publicSuffixes then
        some .publicName
      else none := by
  obtain ⟨second, others, labels⟩ := exists_reverse_pieces dotted
  simp [publicSuffix, labels]

/-- The countries whose domains have compound suffixes. -/
def compoundEndings : List String :=
  ["uk", "au", "br", "nz", "jp", "cn", "kr", "mx", "ar", "tw", "hk", "sg",
    "in", "za", "tr", "il", "ua", "pl"]

theorem lastLabel_mem_compoundEndings : ∀ compound ∈ compoundSuffixes,
    ∃ ending ∈ compoundEndings,
      lastLabel compound.toList = ending.toList := by
  decide +kernel

theorem compoundEndings_subset : compoundEndings ⊆ publicSuffixes := by
  simp [compoundEndings, publicSuffixes]

/-- Every suffix of two labels ends in one of a single label. -/
theorem lastLabel_mem_publicSuffixes {compound : String}
    (listed : compound ∈ compoundSuffixes) :
    String.ofList (lastLabel compound.toList) ∈ publicSuffixes := by
  obtain ⟨ending, known, same⟩ :=
    lastLabel_mem_compoundEndings compound listed
  rw [same, String.ofList_toList]
  exact compoundEndings_subset known

/-- The rule about the last two labels decides nothing on its own. -/
theorem publicSuffix_of_compoundSuffix {host : List Char}
    (decided : compoundSuffix host = some .publicName) :
    publicSuffix host = some .publicName := by
  unfold compoundSuffix at decided
  split at decided
  next last second third others labels =>
    split at decided
    next listed =>
      have last_mem : last ∈ Text.pieces '.' host := by
        rw [← List.mem_reverse, labels]
        exact List.mem_cons_self
      have undotted := Text.not_mem_of_mem_pieces last_mem
      have known :=
        lastLabel_mem_publicSuffixes (List.contains_iff_mem.1 listed)
      rw [String.toList_ofList, lastLabel_append undotted] at known
      simp [publicSuffix, labels, known]
    next => cases decided
  next => cases decided

end Host

open Host

/-- The class of a host by any list of rules. -/
def classifyBy (rules : List ClassificationRule) (host : String) : HostClass :=
  (rules.findSome? fun rule =>
    rule.apply (host.toList.map Char.toLower)).getD .unknown

theorem dot_mem_map_toLower {host : List Char} (dotted : '.' ∈ host) :
    '.' ∈ host.map Char.toLower :=
  List.mem_map.2 ⟨'.', dotted, rfl⟩

/-- The suffix rules decide about a host that is neither local nor a cloud
endpoint, and the one about single labels decides alone. -/
theorem classify_of_plain {host : String} (outside : ¬ IsLocal host.toList)
    (absent : cloudProvider? host.toList = none) :
    classify host =
      (publicSuffix (host.toList.map Char.toLower)).getD .unknown := by
  obtain ⟨foreign, dotted⟩ := not_or.1 outside
  have labels : '.' ∈ host.toList := Classical.not_not.1 dotted
  have decided : classify host =
      ((compoundSuffix (host.toList.map Char.toLower)).or
        (publicSuffix (host.toList.map Char.toLower))).getD .unknown := by
    simp only [classify, classificationRules, List.findSome?_cons,
      localSuffix_eq_none foreign, singleLabel_map_toLower, if_pos labels,
      cloudPattern, cloudProvider?_map_toLower, absent, Option.map_none]
    cases compoundSuffix (host.toList.map Char.toLower) <;>
      cases publicSuffix (host.toList.map Char.toLower) <;> rfl
  rcases compoundSuffix_cases (host.toList.map Char.toLower) with
    passed | found
  · rw [decided, passed, Option.none_or]
  · rw [decided, found, publicSuffix_of_compoundSuffix found, Option.some_or]

/-- The class of a host in closed form. -/
theorem classify_cases (host : String) :
    (IsLocal host.toList ∧ classify host = .internal) ∨
    (¬ IsLocal host.toList ∧
      ((∃ provider, cloudProvider? host.toList = some provider ∧
          classify host = .cloud provider) ∨
        (cloudProvider? host.toList = none ∧
          ((HasPublicLabel host.toList ∧ classify host = .publicName) ∨
            (¬ HasPublicLabel host.toList ∧
              classify host = .unknown))))) := by
  by_cases isLocal : IsLocal host.toList
  · exact .inl ⟨isLocal, classify_of_isLocal isLocal⟩
  · refine .inr ⟨isLocal, ?_⟩
    cases found : cloudProvider? host.toList with
    | some provider =>
        exact .inl ⟨provider, rfl, classify_of_cloudProvider isLocal found⟩
    | none =>
        have labels : '.' ∈ host.toList :=
          Classical.not_not.1 (not_or.1 isLocal).2
        have decided := publicSuffix_eq (dot_mem_map_toLower labels)
        rw [classify_of_plain isLocal found, decided]
        refine .inr ⟨rfl, ?_⟩
        unfold HasPublicLabel
        split
        next known => exact .inl ⟨known, rfl⟩
        next other => exact .inr ⟨other, rfl⟩

theorem classify_eq_internal_iff {host : String} :
    classify host = .internal ↔ IsLocal host.toList := by
  rcases classify_cases host with ⟨isLocal, known⟩ | ⟨outside,
    ⟨provider, _, known⟩ | ⟨_, ⟨_, known⟩ | ⟨_, known⟩⟩⟩
  all_goals simp [*]

theorem classify_eq_cloud_iff {host provider : String} :
    classify host = .cloud provider ↔ ¬ IsLocal host.toList ∧
      cloudProvider? host.toList = some provider := by
  rcases classify_cases host with ⟨isLocal, known⟩ | ⟨outside,
    ⟨provider, found, known⟩ | ⟨absent, ⟨_, known⟩ | ⟨_, known⟩⟩⟩
  all_goals simp [*]

theorem classify_eq_publicName_iff {host : String} :
    classify host = .publicName ↔ ¬ IsLocal host.toList ∧
      cloudProvider? host.toList = none ∧ HasPublicLabel host.toList := by
  rcases classify_cases host with ⟨isLocal, known⟩ | ⟨outside,
    ⟨provider, found, known⟩ | ⟨absent, ⟨listed, known⟩ | ⟨other, known⟩⟩⟩
  all_goals simp [*]

theorem classify_eq_unknown_iff {host : String} :
    classify host = .unknown ↔ ¬ IsLocal host.toList ∧
      cloudProvider? host.toList = none ∧ ¬ HasPublicLabel host.toList := by
  rcases classify_cases host with ⟨isLocal, known⟩ | ⟨outside,
    ⟨provider, found, known⟩ | ⟨absent, ⟨listed, known⟩ | ⟨other, known⟩⟩⟩
  all_goals simp [*]

/-- The rule about two labels can be left out. -/
theorem classifyBy_without_compoundSuffix (host : String) :
    classifyBy (classificationRules.filter fun rule =>
      rule.name != "compound-tld") host = classify host := by
  have kept : (classificationRules.filter fun rule =>
      rule.name != "compound-tld") =
        [⟨"local-suffix", localSuffix⟩, ⟨"single-label", singleLabel⟩,
          ⟨"cloud-pattern", cloudPattern⟩, ⟨"public-tld", publicSuffix⟩] := by
    simp [classificationRules]
  rw [kept]
  simp only [classifyBy, classify, classificationRules, List.findSome?_cons]
  rcases compoundSuffix_cases (host.toList.map Char.toLower) with
    passed | found
  · simp only [passed]
  · simp only [found, publicSuffix_of_compoundSuffix found]

end ProxyLint
