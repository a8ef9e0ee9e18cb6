import ProxyLint.Proofs.Resolution.StaticRemedy
import ProxyLint.Proofs.Resolution.Transfer

/-!
# Following the advice of a finding

Every finding says how it can be mended.  The main statement is that doing so
leaves nothing to report: a static host is moved into a variable, a resolver is
added where none is in scope, and servers that are looked up only once get the
parameter that has them looked up again.
-/

namespace ProxyLint

namespace ConfigTree

open Advice

/-- The finding that a directive names its target by a host that is written in
the configuration. -/
def IsStaticReport (tree : ConfigTree) (id : Nat) (target : ProxyTarget)
    (finding : Finding) : Prop :=
  finding.message = staticMessage (tree.name id) target.host target ∨
    ∃ provider, finding.message =
      cloudMessage (tree.name id) target.host provider target

/-- The directives that findings give as evidence. -/
def evidenceNodes (findings : List Finding) : List Nat :=
  findings.flatMap fun finding => finding.evidence.map Snapshot.node

variable {tree : ConfigTree} {id : Nat}

/-- Only a target without variables that names no group of servers is reported
for a static host. -/
theorem static_of_report {raw : String} {target : ProxyTarget}
    {finding : Finding} (argument : tree.firstArgument? id = some raw)
    (extracted : ProxyTarget.extract raw = .ok target)
    (member : finding ∈ tree.analyze id)
    (reported : tree.IsStaticReport id target finding) :
    '$' ∉ raw.toList ∧ tree.serverGroup? id target.host = none := by
  obtain ⟨_, _, host, known, reason⟩ := reportedFor_of_mem_analyze member
  obtain rfl := Option.some.inj (argument.symm.trans known.argument)
  obtain rfl := Except.ok.inj (extracted.symm.trans known.extracted)
  cases reason with
  | servers found listed =>
      obtain ⟨_, others⟩ := isAboutGroup_of_mem_groupFindings listed
      rcases reported with plain | ⟨provider, cloud⟩
      · exact absurd plain (others _ _ "" _).2.1
      · exact absurd cloud (others _ _ _ _).2.2
  | missingResolver absent dollar same =>
      subst same
      rcases reported with plain | ⟨provider, cloud⟩
      · exact absurd plain (missingResolverMessage_ne_staticMessage _ _ _ _)
      · exact absurd cloud (missingResolverMessage_ne_cloudMessage _ _ _ _ _)
  | staticHost absent constant _ =>
      obtain ⟨cut, _⟩ := ProxyTarget.cutFrom_of_extract extracted
      have plain : '$' ∉ target.host.toList := fun member =>
        constant (cut.host_subset member)
      have folded := known.folded
      rw [resolveHost_of_no_dollar plain cut.host_nonempty] at folded
      obtain rfl := HostResolution.resolved.inj folded
      exact ⟨constant, absent⟩

/-- Only a target with variables that names no group of servers is reported for
a missing resolver. -/
theorem variable_of_report {host : String} {finding : Finding}
    (member : finding ∈ tree.analyze id)
    (reported : finding.message =
      missingResolverMessage (tree.name id) host) :
    ∃ raw target host, tree.HasNamedHost id raw target host ∧
      tree.serverGroup? id host = none ∧ '$' ∈ raw.toList := by
  obtain ⟨raw, target, folded, known, reason⟩ :=
    reportedFor_of_mem_analyze member
  cases reason with
  | servers found listed =>
      obtain ⟨_, others⟩ := isAboutGroup_of_mem_groupFindings listed
      exact absurd reported (others _ _ "" target).1
  | missingResolver absent dollar _ =>
      exact ⟨raw, target, folded, known, absent, dollar⟩
  | staticHost absent constant listed =>
      obtain ⟨plain | ⟨provider, cloud⟩, _⟩ :=
        message_of_mem_staticFindings listed
      · exact absurd (reported.symm.trans plain)
          (missingResolverMessage_ne_staticMessage _ _ _ _)
      · exact absurd (reported.symm.trans cloud)
          (missingResolverMessage_ne_cloudMessage _ _ _ _ _)

/-- Only a host that names a group of servers is reported with evidence. -/
theorem group_of_evidence {finding : Finding}
    (member : finding ∈ tree.analyze id) (evidence : finding.evidence ≠ []) :
    ∃ raw target host group, tree.HasNamedHost id raw target host ∧
      tree.serverGroup? id host = some group := by
  obtain ⟨raw, target, host, known, reason⟩ :=
    reportedFor_of_mem_analyze member
  cases reason with
  | @servers group found _ => exact ⟨raw, target, host, group, known, found⟩
  | missingResolver _ _ same =>
      subst same
      exact absurd rfl evidence
  | staticHost _ _ listed =>
      exact absurd (message_of_mem_staticFindings listed).2 evidence

/-- A resolver in any block around it settles a directive with a variable. -/
theorem analyze_push_resolver {raw host : String} {target : ProxyTarget}
    {resolver : Directive} (known : tree.HasNamedHost id raw target host)
    (absent : tree.serverGroup? id host = none) (dollar : '$' ∈ raw.toList)
    (kind : resolver.name = "resolver")
    (around : resolver.parent ∈ tree.enclosing id)
    (older : resolver.parent ≤ tree.size + 1) :
    (tree.push resolver older).analyze id = [] := by
  have inside := known.inside
  have embeds := embeds_push older
  have sees {other : String} (apart : "resolver" ≠ other) :
      SeesSame (fun id => id) tree (tree.push resolver older) other id :=
    seesSame_push older (.inr (kind ▸ apart))
  have argument : (tree.push resolver older).firstArgument? id = some raw := by
    rw [firstArgument?_eq_of_arguments_eq (arguments_push_of_le older inside)]
    exact known.argument
  have placed := known.placed (sees (by decide)) embeds argument
  have ungrouped : (tree.push resolver older).serverGroup? id host = none :=
    (serverGroup?_eq_none_iff_placed inside (sees (by decide)) embeds host).2
      absent
  have visible : tree.size + 1 ∈
      (tree.push resolver older).visible "resolver" id := by
    refine mem_visible.2 ⟨resolver.parent, ?_, parent?_push_new older, ?_⟩
    · rwa [enclosing_push_of_le older inside]
    · rw [name_push_new, kind]
  have resolves : (tree.push resolver older).hasResolver id = true := by
    simp [hasResolver, List.ne_nil_of_mem visible]
  rw [placed.analyze_of_variable ungrouped dollar, resolves, if_pos rfl]

/-- The evidence about a group are its servers on record. -/
theorem mem_evidenceNodes_groupFindings {group : ServerGroup} {server : Nat} :
    server ∈ evidenceNodes (tree.groupFindings id group) ↔
      ∃ fixed ∈ group.fixedServers, fixed.directive = server := by
  have nodes : evidenceNodes (tree.groupFindings id group) =
      (group.cloudServers ++ group.plainServers).map
        FixedServer.directive := by
    rw [groupFindings_eq, evidenceNodes, List.flatMap_append, List.map_append]
    congr 1
    · split
      next empty => rw [empty]; rfl
      next => simp [evidence_resolverFinding, snapshot]
    · split
      next empty => rw [empty]; rfl
      next => simp [evidence_resolverFinding, snapshot]
  rw [nodes, List.mem_map]
  refine exists_congr fun fixed => and_congr_left fun _ => ?_
  rw [List.mem_append, ServerGroup.cloudServers, ServerGroup.plainServers,
    List.mem_filter, List.mem_filter]
  cases fixed.provider <;> simp

/-- Further arguments of servers bring no servers into a group. -/
theorem groupServers_withArgument_subset {host argument : String}
    {chosen : List Nat} (inside : id ≤ tree.size)
    (uniform : ∀ directive ∈ chosen, tree.name directive = "server") :
    (tree.withArgument chosen argument).groupServers host id ⊆
      tree.groupServers host id := by
  intro server listed
  obtain ⟨block, around, declared, ⟨held, kind, named⟩, heldServer, isServer⟩ :=
    mem_groupServers.1 listed
  have enclosing_eq := (embeds_withArgument tree chosen argument).enclosing_eq
    inside
  rw [List.map_id'] at enclosing_eq
  rw [enclosing_eq] at around
  rw [parent?_withArgument] at held heldServer
  rw [name_withArgument] at kind isServer
  have spared : declared ∉ chosen := by
    intro chosen
    rw [uniform declared chosen] at kind
    exact absurd kind (by decide)
  rw [arguments_withArgument_of_not_mem spared] at named
  exact mem_groupServers.2
    ⟨block, around, declared, ⟨held, kind, named⟩, heldServer, isServer⟩

section Resolving

variable {host : String} {group : ServerGroup}
  (found : tree.serverGroup? id host = some group)

include found

theorem mem_evidenceNodes {server : Nat} :
    server ∈ evidenceNodes (tree.groupFindings id group) ↔
      server ∈ tree.groupServers host id ∧
        ∃ fixed, tree.fixedServer? server = some fixed := by
  rw [mem_evidenceNodes_groupFindings, fixedServers_of_serverGroup? found]
  simp only [List.mem_filterMap]
  constructor
  · rintro ⟨fixed, ⟨directive, listed, recorded⟩, rfl⟩
    rw [directive_of_fixedServer? recorded]
    exact ⟨listed, fixed, recorded⟩
  · rintro ⟨listed, fixed, recorded⟩
    exact ⟨fixed, ⟨server, listed, recorded⟩,
      directive_of_fixedServer? recorded⟩

/-- All evidence about a group are servers. -/
theorem name_of_mem_evidenceNodes {server : Nat}
    (listed : server ∈ evidenceNodes (tree.groupFindings id group)) :
    tree.name server = "server" := by
  obtain ⟨_, _, _, _, _, named⟩ :=
    mem_groupServers.1 ((mem_evidenceNodes found).1 listed).1
  exact named

/-- A server is looked up again once it has the parameter that it lacked. -/
theorem fixedServer?_withArgument {server : Nat}
    (listed : server ∈ tree.groupServers host id) :
    (tree.withArgument (evidenceNodes (tree.groupFindings id group))
      "resolve").fixedServer? server = none := by
  refine Option.eq_none_iff_forall_not_mem.2 fun fixed recorded => ?_
  obtain ⟨fixedArguments, address, target, first, extracted, dynamic, rfl⟩ :=
    inspectServer_eq_fixed_iff.1 (fixedServer?_eq_some_iff.1 recorded)
  by_cases chosen : server ∈ evidenceNodes (tree.groupFindings id group)
  · obtain ⟨_, old, oldRecorded⟩ := (mem_evidenceNodes found).1 chosen
    obtain ⟨_, _, _, present, _⟩ :=
      inspectServer_eq_fixed_iff.1 (fixedServer?_eq_some_iff.1 oldRecorded)
    rw [arguments_withArgument_of_mem present chosen] at fixedArguments
    exact fixedArguments (List.mem_append_right _ List.mem_cons_self)
  · have same : (tree.withArgument (evidenceNodes
        (tree.groupFindings id group)) "resolve").arguments server =
          tree.arguments server := arguments_withArgument_of_not_mem chosen
    rw [same] at fixedArguments
    rw [firstArgument?_eq_of_arguments_eq same] at first
    have still := inspectServer_eq_fixed_iff.2
      ⟨fixedArguments, address, target, first, extracted, dynamic, rfl⟩
    exact chosen ((mem_evidenceNodes found).2
      ⟨listed, _, fixedServer?_eq_some_iff.2 still⟩)

/-- Nothing is left to report about a group when all its evidence has got the
parameter. -/
theorem analyze_withArgument {raw : String} {target : ProxyTarget}
    (known : tree.HasNamedHost id raw target host) :
    (tree.withArgument (evidenceNodes (tree.groupFindings id group))
      "resolve").analyze id = [] := by
  have servers : ∀ server ∈ evidenceNodes (tree.groupFindings id group),
      tree.name server = "server" := fun server =>
    name_of_mem_evidenceNodes found
  have settled : ∀ server ∈ tree.groupServers host id,
      (tree.withArgument (evidenceNodes (tree.groupFindings id group))
        "resolve").fixedServer? server = none := fun server =>
    fixedServer?_withArgument found
  generalize evidenceNodes (tree.groupFindings id group) = chosen
    at servers settled ⊢
  have inside := known.inside
  have embeds := embeds_withArgument tree chosen "resolve"
  have placed := known.placed (seesSame_withArgument servers (by decide))
    embeds (firstArgument?_withArgument known.argument)
  cases regrouped :
    (tree.withArgument chosen "resolve").serverGroup? id host with
  | none =>
      rw [serverGroup?_eq_none_iff_placed inside
        (seesSame_withArgument servers (by decide)) embeds, found] at regrouped
      cases regrouped
  | some other =>
      have fixed : other.fixedServers = [] := by
        rw [fixedServers_of_serverGroup? regrouped, List.filterMap_eq_nil_iff]
        intro server listed
        exact settled server
          (groupServers_withArgument_subset inside servers listed)
      rw [placed.analyze_of_group regrouped, groupFindings]
      simp [ServerGroup.cloudServers, ServerGroup.plainServers, fixed]

end Resolving

/-- Following the advice of a finding leaves nothing to report.  For a static
host this is said of the new directive, which is written as the finding shows
it, and for a missing resolver and for servers of the directive itself. -/
theorem advice_silences_findings (tree : ConfigTree) (id : Nat) :
    (∀ raw target, tree.firstArgument? id = some raw →
      ProxyTarget.extract raw = .ok target →
      (∃ finding ∈ tree.analyze id, tree.IsStaticReport id target finding) →
      ∀ remedy : StaticRemedy tree id target,
        ∃ grown, tree.pushAll? remedy.directives = some grown ∧
          grown.analyze grown.size = [] ∧
          grown.written grown.size =
            variableTarget (tree.name id) target) ∧
    (∀ host, (∃ finding ∈ tree.analyze id,
        finding.message = missingResolverMessage (tree.name id) host) →
      ∀ resolver : Directive, resolver.name = "resolver" →
        resolver.parent ∈ tree.enclosing id →
        ∃ grown, tree.push? resolver = some grown ∧
          grown.analyze id = []) ∧
    ((∃ finding ∈ tree.analyze id, finding.evidence ≠ []) →
      (tree.withArgument (evidenceNodes (tree.analyze id))
        "resolve").analyze id = []) := by
  refine ⟨?_, ?_, ?_⟩
  · rintro raw target argument extracted ⟨finding, member, reported⟩ remedy
    obtain ⟨constant, absent⟩ :=
      static_of_report argument extracted member reported
    obtain ⟨cut, network⟩ := ProxyTarget.cutFrom_of_extract extracted
    obtain ⟨grown, pushed, extended⟩ := remedy.exists_grown
    exact ⟨grown, pushed,
      remedy.analyze_copy extended cut network constant absent,
      remedy.written_copy extended cut⟩
  · rintro host ⟨finding, member, reported⟩ resolver kind around
    obtain ⟨raw, target, folded, known, absent, dollar⟩ :=
      variable_of_report member reported
    have older : resolver.parent ≤ tree.size + 1 :=
      Nat.le_succ_of_le (Nat.le_trans (le_of_mem_enclosing around) known.inside)
    exact ⟨_, push?_eq_some older,
      analyze_push_resolver known absent dollar kind around older⟩
  · rintro ⟨finding, member, evidence⟩
    obtain ⟨raw, target, host, group, known, found⟩ :=
      group_of_evidence member evidence
    rw [known.analyze_of_group found]
    exact analyze_withArgument found known

/-- A site with a static host, a host in a variable and a group of servers. -/
def advisedSite : ConfigTree where
  directives := #[
    ⟨0, "upstream", ["pool"], true, some 1⟩,
    ⟨1, "server", ["api.io"], false, some 2⟩,
    ⟨0, "server", [], true, some 4⟩,
    ⟨3, "set", ["$backend", "old.io"], false, some 5⟩,
    ⟨3, "proxy_pass", ["http://shop.io:8080/"], false, some 6⟩,
    ⟨3, "proxy_pass", ["http://$backend"], false, some 7⟩,
    ⟨3, "proxy_pass", ["http://pool"], false, some 8⟩]
  rootLine := none
  parent_le := by decide

/-- What the finding about the static host asks for. -/
def advisedDirectives : StaticRemedy advisedSite 5
    ⟨some "http", "shop.io", some "8080"⟩ where
  block := 3
  resolver := ⟨3, "resolver", ["8.8.8.8", "valid=30s"], false, some 10⟩
  assignment := ⟨3, "set", ["$backend", "shop.io"], false, some 11⟩
  copy := ⟨3, "proxy_pass", ["http://$backend:8080"], false, some 12⟩
  parent?_eq := by decide
  resolver_parent := rfl
  resolver_name := rfl
  assignment_parent := rfl
  assignment_name := rfl
  assignment_arguments := rfl
  copy_parent := rfl
  copy_name := by decide
  copy_arguments := by decide +kernel
  copy_simple := rfl

theorem advisedSite_silenced :
    (∃ grown, advisedSite.pushAll? advisedDirectives.directives =
        some grown ∧ grown.analyze grown.size = [] ∧
        grown.written grown.size = "proxy_pass http://$backend:8080;") ∧
      (∃ grown, advisedSite.push?
          ⟨0, "resolver", ["8.8.8.8"], false, none⟩ = some grown ∧
        grown.analyze 6 = []) ∧
      (advisedSite.withArgument [2] "resolve").analyze 7 = [] := by
  have judgedStatic : advisedSite.judge 5 = .staticTarget
      ⟨some "http", "shop.io", some "8080"⟩ "shop.io" .publicName := by
    decide +kernel
  have static : advisedSite.resolverFinding 5 .medium
      (staticMessage (advisedSite.name 5) "shop.io"
        ⟨some "http", "shop.io", some "8080"⟩) [] ∈
      advisedSite.analyze 5 := by
    rw [analyze, judgedStatic]
    exact List.mem_singleton_self _
  have judgedVariable : advisedSite.judge 6 =
      .variableTarget "old.io" false := by decide +kernel
  have unresolved : advisedSite.resolverFinding 6 .medium
      (missingResolverMessage (advisedSite.name 6) "old.io") [] ∈
      advisedSite.analyze 6 := by
    rw [analyze, judgedVariable]
    exact List.mem_singleton_self _
  have grouped : ∃ finding ∈ advisedSite.analyze 7,
      finding.evidence ≠ [] := by decide +kernel
  have nodes : evidenceNodes (advisedSite.analyze 7) = [2] := by
    decide +kernel
  refine ⟨?_, ?_, ?_⟩
  · obtain ⟨grown, pushed, silent, shown⟩ :=
      (advice_silences_findings advisedSite 5).1 "http://shop.io:8080/"
        ⟨some "http", "shop.io", some "8080"⟩ (by decide +kernel)
        (by decide +kernel) ⟨_, static, .inl rfl⟩ advisedDirectives
    exact ⟨grown, pushed, silent, shown.trans (by decide +kernel)⟩
  · exact (advice_silences_findings advisedSite 6).2.1 "old.io"
      ⟨_, unresolved, rfl⟩ _ rfl (by decide +kernel)
  · have silent := (advice_silences_findings advisedSite 7).2.2 grouped
    rwa [nodes] at silent

end ConfigTree

end ProxyLint
