import ProxyLint.Proofs.Configuration.Blocks
import ProxyLint.Resolution.Advice

/-!
# The questions asked of a directive

Each lemma gives the judgement, or what it is reported as, once the answers to
the earlier questions are known.
-/

namespace ProxyLint

namespace ConfigTree

/-- A directive with a target whose host is known is judged by that host. -/
theorem judge_eq_judgeHost {tree : ConfigTree} {id : Nat} {raw host : String}
    {target : ProxyTarget} (argument : tree.firstArgument? id = some raw)
    (extracted : ProxyTarget.extract raw = .ok target)
    (folded : tree.resolveHost id target.host = .resolved host) :
    tree.judge id = tree.judgeHost id raw target host := by
  simp [judge, argument, extracted, folded]

theorem judgeHost_of_group {tree : ConfigTree} {id : Nat} {raw host : String}
    {target : ProxyTarget} {group : ServerGroup} (nonempty : host ≠ "")
    (named : isAddress host = false)
    (found : tree.serverGroup? id host = some group) :
    tree.judgeHost id raw target host = .serverGroup group := by
  simp [judgeHost, nonempty, named, found]

theorem judgeHost_of_no_group {tree : ConfigTree} {id : Nat}
    {raw host : String} {target : ProxyTarget} (nonempty : host ≠ "")
    (named : isAddress host = false)
    (absent : tree.serverGroup? id host = none) :
    tree.judgeHost id raw target host =
      if '$' ∈ raw.toList then .variableTarget host (tree.hasResolver id)
      else .staticTarget target host (classify host) := by
  simp [judgeHost, nonempty, named, absent]

/-- The host of a directive that comes as far as the question of server
groups. -/
structure HasNamedHost (tree : ConfigTree) (id : Nat) (raw : String)
    (target : ProxyTarget) (host : String) : Prop where
  argument : tree.firstArgument? id = some raw
  extracted : ProxyTarget.extract raw = .ok target
  folded : tree.resolveHost id target.host = .resolved host
  nonempty : host ≠ ""
  named : isAddress host = false

theorem HasNamedHost.inside {tree : ConfigTree} {id : Nat}
    {raw host : String} {target : ProxyTarget}
    (known : tree.HasNamedHost id raw target host) : id ≤ tree.size := by
  obtain ⟨_, found⟩ := exists_find?_of_firstArgument? known.argument
  exact le_size_of_find? found

theorem HasNamedHost.judge_of_group {tree : ConfigTree} {id : Nat}
    {raw host : String} {target : ProxyTarget} {group : ServerGroup}
    (known : tree.HasNamedHost id raw target host)
    (found : tree.serverGroup? id host = some group) :
    tree.judge id = .serverGroup group := by
  rw [judge_eq_judgeHost known.argument known.extracted known.folded,
    judgeHost_of_group known.nonempty known.named found]

theorem HasNamedHost.judge_of_no_group {tree : ConfigTree} {id : Nat}
    {raw host : String} {target : ProxyTarget}
    (known : tree.HasNamedHost id raw target host)
    (absent : tree.serverGroup? id host = none) :
    tree.judge id =
      if '$' ∈ raw.toList then .variableTarget host (tree.hasResolver id)
      else .staticTarget target host (classify host) := by
  rw [judge_eq_judgeHost known.argument known.extracted known.folded,
    judgeHost_of_no_group known.nonempty known.named absent]

theorem HasNamedHost.analyze_of_group {tree : ConfigTree} {id : Nat}
    {raw host : String} {target : ProxyTarget} {group : ServerGroup}
    (known : tree.HasNamedHost id raw target host)
    (found : tree.serverGroup? id host = some group) :
    tree.analyze id = tree.groupFindings id group := by
  rw [analyze, known.judge_of_group found]
  rfl

theorem HasNamedHost.analyze_of_variable {tree : ConfigTree} {id : Nat}
    {raw host : String} {target : ProxyTarget}
    (known : tree.HasNamedHost id raw target host)
    (absent : tree.serverGroup? id host = none) (dollar : '$' ∈ raw.toList) :
    tree.analyze id =
      if tree.hasResolver id then []
      else [tree.resolverFinding id .medium
        (Advice.missingResolverMessage (tree.name id) host) []] := by
  rw [analyze, known.judge_of_no_group absent, if_pos dollar]
  rfl

theorem HasNamedHost.analyze_of_static {tree : ConfigTree} {id : Nat}
    {raw host : String} {target : ProxyTarget}
    (known : tree.HasNamedHost id raw target host)
    (absent : tree.serverGroup? id host = none) (constant : '$' ∉ raw.toList) :
    tree.analyze id = tree.staticFindings id target host (classify host) := by
  rw [analyze, known.judge_of_no_group absent, if_neg constant]
  rfl

/-- The judgements that say why a directive is not looked at any further. -/
def IsDismissal : Judgement → Prop
  | .noTarget | .unusable _ | .malformedHost _ _ | .requestDependent
  | .emptyHost | .address => True
  | .serverGroup _ | .variableTarget _ _ | .staticTarget _ _ _ => False

/-- Every directive is dismissed or has a host that may be looked up. -/
theorem judge_cases (tree : ConfigTree) (id : Nat) :
    IsDismissal (tree.judge id) ∨
      ∃ raw target host, tree.HasNamedHost id raw target host := by
  cases argument : tree.firstArgument? id with
  | none =>
      left
      simp [judge, argument, IsDismissal]
  | some raw =>
      cases extracted : ProxyTarget.extract raw with
      | error fault =>
          left
          simp [judge, argument, extracted, IsDismissal]
      | ok target =>
          cases folded : tree.resolveHost id target.host with
          | malformed | requestDependent =>
              left
              simp [judge, argument, extracted, folded, IsDismissal]
          | resolved host =>
              have judged := judge_eq_judgeHost argument extracted folded
              by_cases empty : host = ""
              · left
                simp [judged, judgeHost, empty, IsDismissal]
              · cases named : isAddress host with
                | true =>
                    left
                    simp [judged, judgeHost, empty, named, IsDismissal]
                | false =>
                    exact .inr ⟨raw, target, host, argument, extracted, folded,
                      empty, named⟩

theorem findingsOf_of_isDismissal {tree : ConfigTree} {id : Nat}
    {judgement : Judgement} (dismissed : IsDismissal judgement) :
    tree.findingsOf id judgement = [] := by
  cases judgement with
  | serverGroup | variableTarget | staticTarget => cases dismissed
  | _ => rfl

/-- The three ways in which a directive with a host comes to be reported. -/
inductive ReportedFor (tree : ConfigTree) (id : Nat) (raw : String)
    (target : ProxyTarget) (host : String) (finding : Finding) : Prop where
  | servers {group : ServerGroup}
      (found : tree.serverGroup? id host = some group)
      (listed : finding ∈ tree.groupFindings id group)
  | missingResolver (absent : tree.serverGroup? id host = none)
      (dollar : '$' ∈ raw.toList)
      (same : finding = tree.resolverFinding id .medium
        (Advice.missingResolverMessage (tree.name id) host) [])
  | staticHost (absent : tree.serverGroup? id host = none)
      (constant : '$' ∉ raw.toList)
      (listed : finding ∈ tree.staticFindings id target host (classify host))

theorem reportedFor_of_mem_analyze {tree : ConfigTree} {id : Nat}
    {finding : Finding} (member : finding ∈ tree.analyze id) :
    ∃ raw target host, tree.HasNamedHost id raw target host ∧
      tree.ReportedFor id raw target host finding := by
  rcases tree.judge_cases id with dismissed | ⟨raw, target, host, known⟩
  · rw [analyze, findingsOf_of_isDismissal dismissed] at member
    cases member
  · refine ⟨raw, target, host, known, ?_⟩
    cases found : tree.serverGroup? id host with
    | some group =>
        rw [known.analyze_of_group found] at member
        exact .servers found member
    | none =>
        by_cases dollar : '$' ∈ raw.toList
        · rw [known.analyze_of_variable found dollar] at member
          split at member
          next => cases member
          next =>
            exact .missingResolver found dollar (List.mem_singleton.1 member)
        · rw [known.analyze_of_static found dollar] at member
          exact .staticHost found dollar member

/-- A finding about a static host has one of two messages, and no evidence. -/
theorem message_of_mem_staticFindings {tree : ConfigTree} {id : Nat}
    {target : ProxyTarget} {host : String} {hostClass : HostClass}
    {finding : Finding}
    (listed : finding ∈ tree.staticFindings id target host hostClass) :
    (finding.message = Advice.staticMessage (tree.name id) host target ∨
      ∃ provider, finding.message =
        Advice.cloudMessage (tree.name id) host provider target) ∧
      finding.evidence = [] := by
  cases hostClass with
  | cloud provider =>
      obtain rfl := List.mem_singleton.1 listed
      exact ⟨.inr ⟨provider, rfl⟩, rfl⟩
  | publicName | unknown =>
      obtain rfl := List.mem_singleton.1 listed
      exact ⟨.inl rfl, rfl⟩
  | internal | address => cases listed

/-- Only server groups give findings with evidence. -/
theorem evidence_eq_nil {tree : ConfigTree} {id : Nat} {judgement : Judgement}
    (single : ∀ group, judgement ≠ .serverGroup group) :
    ∀ finding ∈ tree.findingsOf id judgement, finding.evidence = [] := by
  intro finding member
  cases judgement with
  | serverGroup group => exact absurd rfl (single group)
  | variableTarget host resolverVisible =>
      cases resolverVisible with
      | true => cases member
      | false =>
          obtain rfl := List.mem_singleton.1 member
          rfl
  | staticTarget target host hostClass =>
      cases hostClass with
      | cloud _ | publicName | unknown =>
          obtain rfl := List.mem_singleton.1 member
          rfl
      | internal | address => cases member
  | _ => cases member

end ConfigTree

namespace Advice

/-- Findings about a group start with the word for it, and findings about a
single directive start with its quoted name. -/
theorem head?_cloudServersMessage (group : ServerGroup) :
    (cloudServersMessage group).toList.head? = some 'U' := by
  simp only [cloudServersMessage, String.toList_append, ToString.toString,
    List.append_assoc]
  rfl

theorem head?_plainServersMessage (group : ServerGroup) :
    (plainServersMessage group).toList.head? = some 'U' := by
  simp only [plainServersMessage, String.toList_append, ToString.toString,
    List.append_assoc]
  rfl

theorem head?_missingResolverMessage (name host : String) :
    (missingResolverMessage name host).toList.head? = some '\'' := by
  simp only [missingResolverMessage, String.toList_append, ToString.toString,
    List.append_assoc]
  rfl

theorem head?_cloudMessage (name host provider : String)
    (target : ProxyTarget) :
    (cloudMessage name host provider target).toList.head? = some '\'' := by
  simp only [cloudMessage, String.toList_append, ToString.toString,
    List.append_assoc]
  rfl

theorem head?_staticMessage (name host : String) (target : ProxyTarget) :
    (staticMessage name host target).toList.head? = some '\'' := by
  simp only [staticMessage, String.toList_append, ToString.toString,
    List.append_assoc]
  rfl

/-- After the quoted name the messages about a single directive differ. -/
theorem missingResolverMessage_ne_staticMessage (name host other : String)
    (target : ProxyTarget) :
    missingResolverMessage name host ≠ staticMessage name other target := by
  intro same
  have texts := congrArg String.toList same
  simp only [missingResolverMessage, staticMessage, String.toList_append,
    ToString.toString, List.append_assoc, List.append_cancel_left_eq] at texts
  have differ : some 'a' = some 's' := congrArg (fun text => text[7]?) texts
  exact absurd differ (by decide)

theorem missingResolverMessage_ne_cloudMessage
    (name host other provider : String) (target : ProxyTarget) :
    missingResolverMessage name host ≠
      cloudMessage name other provider target := by
  intro same
  have texts := congrArg String.toList same
  simp only [missingResolverMessage, cloudMessage, String.toList_append,
    ToString.toString, List.append_assoc, List.append_cancel_left_eq] at texts
  have differ : some 'u' = some 't' := congrArg (fun text => text[2]?) texts
  exact absurd differ (by decide)

end Advice

end ProxyLint
