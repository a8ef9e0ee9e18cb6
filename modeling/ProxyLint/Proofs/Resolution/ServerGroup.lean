import ProxyLint.Proofs.Configuration.Blocks
import ProxyLint.Proofs.Resolution.Judgement
import Mathlib.Data.List.Nodup

/-!
# What is found out about a server group

A host that names a server group is judged by the servers of the group alone.
The main statement accounts for every server: those that are looked up only
once are evidence of exactly one finding, cloud endpoints of the finding of
high severity and all others of the finding of medium severity, in the order
in which the servers are declared.
-/

namespace ProxyLint

namespace ConfigTree

/-- A group of servers that a block declares under a name. -/
def DeclaresGroup (tree : ConfigTree) (name : String) (block group : Nat) :
    Prop :=
  tree.parent? group = some block ∧ tree.name group = "upstream" ∧
    tree.arguments group = [name]

/-- The servers in all groups of a name that are declared around a directive,
nearest block first. -/
def groupServers (tree : ConfigTree) (name : String) (id : Nat) : List Nat :=
  (tree.enclosing id).flatMap fun block =>
    ((tree.children block).filter fun group =>
        tree.name group = "upstream" ∧ tree.arguments group = [name]).flatMap
      fun group =>
        (tree.children group).filter fun server => tree.name server = "server"

/-- A server without the `resolve` parameter whose address names a host of a
class. -/
def LooksUpOnce (tree : ConfigTree) (server : Nat) (hostClass : HostClass) :
    Prop :=
  "resolve" ∉ tree.arguments server ∧
    ∃ address target, tree.firstArgument? server = some address ∧
      ProxyTarget.extract address = .ok target ∧
      classifyHost target.host = hostClass

/-- Two lists of servers that are looked up only once, the cloud endpoints and
all others, both in the order of declaration. -/
structure DividesServers (tree : ConfigTree) (name : String) (id : Nat)
    (cloud plain : List Nat) : Prop where
  cloud_sublist : cloud.Sublist (tree.groupServers name id)
  plain_sublist : plain.Sublist (tree.groupServers name id)
  mem_cloud : ∀ server, server ∈ cloud ↔
    server ∈ tree.groupServers name id ∧
      ∃ provider, tree.LooksUpOnce server (.cloud provider)
  mem_plain : ∀ server, server ∈ plain ↔
    server ∈ tree.groupServers name id ∧
      (tree.LooksUpOnce server .publicName ∨
        tree.LooksUpOnce server .unknown)
  groupServers_nodup : (tree.groupServers name id).Nodup
  nodup : (cloud ++ plain).Nodup

open Advice in
/-- A finding that is about a group and not about a single target. -/
def IsAboutGroup (finding : Finding) : Prop :=
  finding.evidence ≠ [] ∧
    ∀ name host provider target,
      finding.message ≠ missingResolverMessage name host ∧
      finding.message ≠ staticMessage name host target ∧
      finding.message ≠ cloudMessage name host provider target

theorem mem_groupServers {tree : ConfigTree} {name : String}
    {id server : Nat} :
    server ∈ tree.groupServers name id ↔
      ∃ block ∈ tree.enclosing id, ∃ group,
        tree.DeclaresGroup name block group ∧
          tree.parent? server = some group ∧ tree.name server = "server" := by
  simp only [groupServers, List.mem_flatMap, List.mem_filter, mem_children,
    decide_eq_true_eq, DeclaresGroup, and_assoc]

theorem groupServers_nodup {tree : ConfigTree} {id : Nat}
    (placed : id ∈ tree.walk) (name : String) :
    (tree.groupServers name id).Nodup := by
  have siblings (block : Nat) : (tree.children block).Nodup :=
    (tree.children_increasing block).imp Nat.ne_of_lt
  refine List.nodup_flatMap.2 ⟨fun block _ => List.nodup_flatMap.2
    ⟨fun group _ => (siblings group).filter _, ?_⟩, ?_⟩
  · refine ((siblings block).filter _).imp fun {first second} differ => ?_
    intro server inFirst inSecond
    have heldByFirst := mem_children.1 (List.mem_filter.1 inFirst).1
    have heldBySecond := mem_children.1 (List.mem_filter.1 inSecond).1
    exact differ (Option.some.inj (heldByFirst.symm.trans heldBySecond))
  · refine (enclosing_nodup placed).imp fun {first second} differ => ?_
    intro server inFirst inSecond
    simp only [List.mem_flatMap, List.mem_filter, mem_children]
      at inFirst inSecond
    obtain ⟨group, ⟨groupInFirst, _⟩, held, _⟩ := inFirst
    obtain ⟨other, ⟨otherInSecond, _⟩, otherHeld, _⟩ := inSecond
    obtain rfl := Option.some.inj (held.symm.trans otherHeld)
    exact differ (Option.some.inj (groupInFirst.symm.trans otherInSecond))

theorem mem_groupsNamed {tree : ConfigTree} {name : String}
    {id group : Nat} :
    group ∈ tree.groupsNamed name id ↔
      ∃ block ∈ tree.enclosing id, tree.DeclaresGroup name block group := by
  simp only [groupsNamed, List.mem_filter, mem_visible, beq_iff_eq,
    DeclaresGroup]
  constructor
  · rintro ⟨⟨block, around, held, kind⟩, arguments⟩
    exact ⟨block, around, held, kind, arguments⟩
  · rintro ⟨block, around, held, kind, arguments⟩
    exact ⟨⟨block, around, held, kind⟩, arguments⟩

/-- Looking up the groups first and then their servers gives the servers in the
order of the blocks around the directive. -/
theorem flatMap_groupsNamed (tree : ConfigTree) (name : String) (id : Nat) :
    (tree.groupsNamed name id).flatMap (tree.declaredIn "server") =
      tree.groupServers name id := by
  have servers : tree.declaredIn "server" = fun group =>
      (tree.children group).filter fun server => tree.name server = "server" :=
    funext fun group => List.filter_congr fun server _ => by rfl
  simp only [groupsNamed, visible, List.filter_flatMap, List.flatMap_assoc,
    groupServers, servers]
  refine congrArg (fun inBlock => List.flatMap inBlock _)
    (funext fun block => ?_)
  congr 1
  rw [declaredIn, List.filter_filter]
  refine List.filter_congr fun group _ => ?_
  rw [Bool.and_comm, Bool.decide_and]
  simp only [beq_eq_decide]

theorem extract_empty : ProxyTarget.extract "" = .error .unrecognized := by
  decide +kernel

/-- What it takes for a server to be recorded as fixed. -/
theorem inspectServer_eq_fixed_iff {tree : ConfigTree} {server : Nat}
    {fixed : FixedServer} :
    tree.inspectServer server = .fixed fixed ↔
      "resolve" ∉ tree.arguments server ∧
        ∃ address target, tree.firstArgument? server = some address ∧
          ProxyTarget.extract address = .ok target ∧
          (classifyHost target.host).needsDynamicResolution = true ∧
          fixed = ⟨server, target.host,
            (classifyHost target.host).provider?⟩ := by
  rw [inspectServer]
  by_cases resolving : "resolve" ∈ tree.arguments server
  · simp [resolving]
  · simp only [List.contains_eq_mem, resolving, decide_false,
      Bool.false_eq_true, if_false, not_false_eq_true, true_and]
    cases first : tree.firstArgument? server with
    | none => simp only [Option.getD_none, extract_empty, reduceCtorEq,
        false_and, exists_false]
    | some address =>
        cases extracted : ProxyTarget.extract address with
        | error fault => simp [extracted]
        | ok target =>
            by_cases dynamic :
              (classifyHost target.host).needsDynamicResolution
            · simp only [Option.getD_some, extracted, dynamic, if_true,
                ServerInspection.fixed.injEq]
              constructor
              · rintro rfl
                exact ⟨address, target, rfl, extracted, dynamic, rfl⟩
              · rintro ⟨_, other, same, otherExtracted, _, rfl⟩
                obtain rfl := Option.some.inj same
                obtain rfl :=
                  Except.ok.inj (extracted.symm.trans otherExtracted)
                rfl
            · simp [extracted, dynamic]

/-- The record of a server, if it is looked up only once. -/
def fixedServer? (tree : ConfigTree) (server : Nat) : Option FixedServer :=
  (tree.inspectServer server).fixed?

theorem fixedServer?_eq_some_iff {tree : ConfigTree} {server : Nat}
    {fixed : FixedServer} :
    tree.fixedServer? server = some fixed ↔
      tree.inspectServer server = .fixed fixed := by
  unfold fixedServer?
  cases tree.inspectServer server <;> simp [ServerInspection.fixed?]

/-- The servers that are cloud endpoints have a provider on record. -/
theorem fixedServer?_isSome_provider {tree : ConfigTree} {server : Nat} :
    (tree.fixedServer? server).any (fun fixed => fixed.provider.isSome) =
        true ↔
      ∃ provider, tree.LooksUpOnce server (.cloud provider) := by
  simp only [Option.any_eq_true, fixedServer?_eq_some_iff,
    inspectServer_eq_fixed_iff, LooksUpOnce]
  constructor
  · rintro ⟨_, ⟨plain, address, target, first, extracted, _, rfl⟩, named⟩
    cases hostClass : classifyHost target.host with
    | cloud provider =>
        exact ⟨provider, plain, address, target, first, extracted, hostClass⟩
    | _ => simp [hostClass, HostClass.provider?] at named
  · rintro ⟨provider, plain, address, target, first, extracted, hostClass⟩
    refine ⟨_, ⟨plain, address, target, first, extracted, ?_, rfl⟩, ?_⟩
    · rw [hostClass]
      rfl
    · simp [hostClass, HostClass.provider?]

theorem fixedServer?_isNone_provider {tree : ConfigTree} {server : Nat} :
    (tree.fixedServer? server).any (fun fixed => fixed.provider.isNone) =
        true ↔
      tree.LooksUpOnce server .publicName ∨
        tree.LooksUpOnce server .unknown := by
  simp only [Option.any_eq_true, fixedServer?_eq_some_iff,
    inspectServer_eq_fixed_iff, LooksUpOnce]
  constructor
  · rintro ⟨_, ⟨plain, address, target, first, extracted, dynamic, rfl⟩,
      unnamed⟩
    cases hostClass : classifyHost target.host with
    | publicName =>
        exact .inl ⟨plain, address, target, first, extracted, hostClass⟩
    | unknown =>
        exact .inr ⟨plain, address, target, first, extracted, hostClass⟩
    | cloud provider => simp [hostClass, HostClass.provider?] at unnamed
    | address | internal =>
        simp [hostClass, HostClass.needsDynamicResolution] at dynamic
  · rintro (⟨plain, address, target, first, extracted, hostClass⟩ |
      ⟨plain, address, target, first, extracted, hostClass⟩)
    all_goals
      refine ⟨_, ⟨plain, address, target, first, extracted, ?_, rfl⟩, ?_⟩
      · rw [hostClass]
        rfl
      · simp [hostClass, HostClass.provider?]

theorem directive_of_fixedServer? {tree : ConfigTree} {server : Nat}
    {fixed : FixedServer} (found : tree.fixedServer? server = some fixed) :
    fixed.directive = server := by
  obtain ⟨_, _, _, _, _, _, rfl⟩ :=
    inspectServer_eq_fixed_iff.1 (fixedServer?_eq_some_iff.1 found)
  rfl

/-- The directives of the recorded servers that pass a test are the servers
whose records pass it. -/
theorem map_directive_filter (tree : ConfigTree) (test : FixedServer → Bool)
    (servers : List Nat) :
    ((servers.filterMap tree.fixedServer?).filter test).map
        FixedServer.directive =
      servers.filter fun server => (tree.fixedServer? server).any test := by
  induction servers with
  | nil => rfl
  | cons server servers ih =>
      cases found : tree.fixedServer? server with
      | none => simpa [found] using ih
      | some fixed =>
          have same := directive_of_fixedServer? found
          by_cases passes : test fixed <;> simp [found, passes, same, ih]

theorem serverGroup?_eq_none_iff {tree : ConfigTree} {id : Nat}
    {host : String} :
    tree.serverGroup? id host = none ↔ tree.groupsNamed host id = [] := by
  simp [serverGroup?]

/-- The servers on record in the group that a host names. -/
theorem fixedServers_of_serverGroup? {tree : ConfigTree} {id : Nat}
    {host : String} {group : ServerGroup}
    (found : tree.serverGroup? id host = some group) :
    group.fixedServers =
      (tree.groupServers host id).filterMap tree.fixedServer? := by
  simp only [serverGroup?] at found
  split at found
  next => cases found
  next =>
    obtain rfl := Option.some.inj found
    rw [ServerGroup.fixedServers, flatMap_groupsNamed, List.filterMap_map]
    rfl

theorem undeclared_of_serverGroup? {tree : ConfigTree} {id : Nat}
    {host : String} (absent : tree.serverGroup? id host = none) :
    ∀ block ∈ tree.enclosing id, ∀ group,
      ¬ tree.DeclaresGroup host block group := by
  intro block around group declared
  have member := mem_groupsNamed.2 ⟨block, around, declared⟩
  rw [serverGroup?_eq_none_iff.1 absent] at member
  cases member

theorem serverGroup?_eq {tree : ConfigTree} {id : Nat} {host : String}
    {block group : Nat} (around : block ∈ tree.enclosing id)
    (declared : tree.DeclaresGroup host block group) :
    ∃ found : ServerGroup, tree.serverGroup? id host = some found ∧
      found.fixedServers =
        (tree.groupServers host id).filterMap tree.fixedServer? := by
  cases found : tree.serverGroup? id host with
  | none =>
      exact absurd declared (undeclared_of_serverGroup? found block around _)
  | some group => exact ⟨group, rfl, fixedServers_of_serverGroup? found⟩

theorem serverGroup?_eq_none {tree : ConfigTree} {id : Nat} {host : String}
    (undeclared : ∀ block ∈ tree.enclosing id, ∀ group,
      ¬ tree.DeclaresGroup host block group) :
    tree.serverGroup? id host = none := by
  have empty : tree.groupsNamed host id = [] :=
    List.eq_nil_iff_forall_not_mem.2 fun group member => by
      obtain ⟨block, around, declared⟩ := mem_groupsNamed.1 member
      exact undeclared block around group declared
  exact serverGroup?_eq_none_iff.2 empty

theorem LooksUpOnce.hostClass_unique {tree : ConfigTree} {server : Nat}
    {hostClass other : HostClass} (looksUp : tree.LooksUpOnce server hostClass)
    (otherLooksUp : tree.LooksUpOnce server other) : hostClass = other := by
  obtain ⟨_, _, _, first, extracted, rfl⟩ := looksUp
  obtain ⟨_, _, _, otherFirst, otherExtracted, rfl⟩ := otherLooksUp
  obtain rfl := Option.some.inj (first.symm.trans otherFirst)
  obtain rfl := Except.ok.inj (extracted.symm.trans otherExtracted)
  rfl

open Advice in
/-- The findings about a group, with its servers given by their directives. -/
theorem groupFindings_eq (tree : ConfigTree) (id : Nat)
    (group : ServerGroup) :
    tree.groupFindings id group =
      (if group.cloudServers.map FixedServer.directive = [] then []
        else [tree.resolverFinding id .high (cloudServersMessage group)
          group.cloudServers]) ++
      if group.plainServers.map FixedServer.directive = [] then []
        else [tree.resolverFinding id .medium (plainServersMessage group)
          group.plainServers] := by
  simp only [groupFindings, List.isEmpty_iff, List.map_eq_nil_iff]

theorem evidence_resolverFinding (tree : ConfigTree) (id : Nat)
    (severity : Severity) (message : String) (servers : List FixedServer) :
    (tree.resolverFinding id severity message servers).evidence =
      (servers.map FixedServer.directive).map tree.snapshot := by
  rw [List.map_map]
  rfl

open Advice in
theorem isAboutGroup_of_starts {finding : Finding}
    (evidence : finding.evidence ≠ [])
    (starts : finding.message.toList.head? = some 'U') :
    IsAboutGroup finding := by
  refine ⟨evidence, fun name host provider target => ⟨?_, ?_, ?_⟩⟩
  all_goals
    intro same
    rw [same] at starts
  · simp [head?_missingResolverMessage] at starts
  · simp [head?_staticMessage] at starts
  · simp [head?_cloudMessage] at starts

open Advice in
theorem isAboutGroup_of_mem_groupFindings {tree : ConfigTree} {id : Nat}
    {group : ServerGroup} {finding : Finding}
    (member : finding ∈ tree.groupFindings id group) :
    IsAboutGroup finding := by
  rw [groupFindings_eq, List.mem_append] at member
  rcases member with high | medium
  · split at high
    next => cases high
    next nonempty =>
      obtain rfl := List.mem_singleton.1 high
      apply isAboutGroup_of_starts
      · simpa [evidence_resolverFinding] using nonempty
      · exact head?_cloudServersMessage group
  · split at medium
    next => cases medium
    next nonempty =>
      obtain rfl := List.mem_singleton.1 medium
      apply isAboutGroup_of_starts
      · simpa [evidence_resolverFinding] using nonempty
      · exact head?_plainServersMessage group

theorem eq_resolverFinding_of_mem_groupFindings {tree : ConfigTree} {id : Nat}
    {group : ServerGroup} {finding : Finding}
    (member : finding ∈ tree.groupFindings id group) :
    ∃ severity message servers,
      finding = tree.resolverFinding id severity message servers ∧
        ∀ server ∈ servers, server ∈ group.fixedServers := by
  rw [groupFindings_eq, List.mem_append] at member
  rcases member with high | medium
  · split at high
    next => cases high
    next =>
      exact ⟨_, _, _, List.mem_singleton.1 high,
        fun server listed => List.mem_of_mem_filter listed⟩
  · split at medium
    next => cases medium
    next =>
      exact ⟨_, _, _, List.mem_singleton.1 medium,
        fun server listed => List.mem_of_mem_filter listed⟩

/-- Every finding of an analysis is about the analyzed directive.  Its evidence
are servers of a group that the directive sees. -/
theorem eq_resolverFinding_of_mem_analyze {tree : ConfigTree} {id : Nat}
    {finding : Finding} (member : finding ∈ tree.analyze id) :
    ∃ severity message servers,
      finding = tree.resolverFinding id severity message servers ∧
        ∀ server ∈ servers, ∃ host,
          server.directive ∈ tree.groupServers host id := by
  obtain ⟨raw, target, host, known, reason⟩ :=
    reportedFor_of_mem_analyze member
  cases reason with
  | servers found listed =>
      obtain ⟨severity, message, servers, same, fixed⟩ :=
        eq_resolverFinding_of_mem_groupFindings listed
      refine ⟨severity, message, servers, same, fun server member => ⟨host, ?_⟩⟩
      have recorded := fixed server member
      rw [fixedServers_of_serverGroup? found] at recorded
      obtain ⟨directive, inGroup, recorded⟩ := List.mem_filterMap.1 recorded
      rwa [directive_of_fixedServer? recorded]
  | missingResolver _ _ same => exact ⟨_, _, [], same, by simp⟩
  | staticHost _ _ listed =>
      cases hostClass : classify host with
      | cloud _ | publicName | unknown =>
          rw [hostClass] at listed
          exact ⟨_, _, [], List.mem_singleton.1 listed, by simp⟩
      | internal | address =>
          rw [hostClass] at listed
          cases listed

theorem primary_of_mem_analyze {tree : ConfigTree} {id : Nat}
    {finding : Finding} (member : finding ∈ tree.analyze id) :
    finding.primary = tree.snapshot id := by
  obtain ⟨_, _, _, rfl, _⟩ := eq_resolverFinding_of_mem_analyze member
  rfl

/-- The evidence is shown as it stands in the tree. -/
theorem evidence_of_mem_analyze {tree : ConfigTree} {id : Nat}
    {finding : Finding} (member : finding ∈ tree.analyze id)
    {snapshot : Snapshot} (listed : snapshot ∈ finding.evidence) :
    snapshot = tree.snapshot snapshot.node ∧
      ∃ host, snapshot.node ∈ tree.groupServers host id := by
  obtain ⟨_, _, servers, rfl, visible⟩ :=
    eq_resolverFinding_of_mem_analyze member
  obtain ⟨server, chosen, rfl⟩ := List.mem_map.1 listed
  exact ⟨rfl, visible server chosen⟩

/-- A server is recorded with a provider or without one, so the two lists of a
group divide its servers. -/
theorem dividesServers_of_records {tree : ConfigTree} {id : Nat}
    {host : String} {found : ServerGroup} (placed : id ∈ tree.walk)
    (records : found.fixedServers =
      (tree.groupServers host id).filterMap tree.fixedServer?) :
    tree.DividesServers host id
      (found.cloudServers.map FixedServer.directive)
      (found.plainServers.map FixedServer.directive) := by
  have distinct := groupServers_nodup placed host
  have cloudServers := tree.map_directive_filter
    (fun fixed => fixed.provider.isSome) (tree.groupServers host id)
  have plainServers := tree.map_directive_filter
    (fun fixed => fixed.provider.isNone) (tree.groupServers host id)
  rw [← records] at cloudServers plainServers
  rw [ServerGroup.cloudServers, ServerGroup.plainServers, cloudServers,
    plainServers]
  constructor
  case cloud_sublist => exact List.filter_sublist
  case plain_sublist => exact List.filter_sublist
  case mem_cloud =>
    intro server
    rw [List.mem_filter, fixedServer?_isSome_provider]
  case mem_plain =>
    intro server
    rw [List.mem_filter, fixedServer?_isNone_provider]
  case groupServers_nodup => exact distinct
  case nodup =>
    rw [List.nodup_append']
    refine ⟨distinct.filter _, distinct.filter _, ?_⟩
    intro server inCloud inPlain
    obtain ⟨provider, cloud⟩ :=
      fixedServer?_isSome_provider.1 (List.mem_filter.1 inCloud).2
    rcases fixedServer?_isNone_provider.1 (List.mem_filter.1 inPlain).2 with
      publicName | unknown
    · cases cloud.hostClass_unique publicName
    · cases cloud.hostClass_unique unknown

/-- A directive whose host names a server group is reported for the servers of
all groups of that name and for nothing else.  The cloud endpoints among the
servers that are looked up only once are the evidence of one finding and the
other such servers that of a second one, and no server occurs twice.  Without
a group of that name no finding has evidence. -/
theorem analyze_group_accounts_for_servers (tree : ConfigTree) (id : Nat)
    (raw host : String) (target : ProxyTarget) (placed : id ∈ tree.walk)
    (argument : tree.firstArgument? id = some raw)
    (extracted : ProxyTarget.extract raw = .ok target)
    (folded : tree.resolveHost id target.host = .resolved host)
    (nonempty : host ≠ "") (named : isAddress host = false) :
    ((∃ block ∈ tree.enclosing id, ∃ group,
        tree.DeclaresGroup host block group) →
      ∃ (cloud plain : List Nat) (high medium : Finding),
        tree.DividesServers host id cloud plain ∧
        tree.analyze id =
          (if cloud = [] then [] else [high]) ++
            (if plain = [] then [] else [medium]) ∧
        high.severity = .high ∧ high.primary = tree.snapshot id ∧
        high.evidence = cloud.map tree.snapshot ∧
        medium.severity = .medium ∧ medium.primary = tree.snapshot id ∧
        medium.evidence = plain.map tree.snapshot ∧
        ∀ finding ∈ tree.analyze id, IsAboutGroup finding) ∧
    ((∀ block ∈ tree.enclosing id, ∀ group,
        ¬ tree.DeclaresGroup host block group) →
      ∀ finding ∈ tree.analyze id, finding.evidence = []) := by
  have judged := judge_eq_judgeHost argument extracted folded
  constructor
  · rintro ⟨block, around, group, declared⟩
    obtain ⟨found, foundGroup, records⟩ := serverGroup?_eq around declared
    have analyzed : tree.analyze id = tree.groupFindings id found := by
      rw [analyze, judged, judgeHost_of_group nonempty named foundGroup]
      rfl
    refine ⟨found.cloudServers.map FixedServer.directive,
      found.plainServers.map FixedServer.directive, _, _,
      dividesServers_of_records placed records,
      analyzed.trans (groupFindings_eq tree id found), rfl, rfl,
      evidence_resolverFinding .., rfl, rfl, evidence_resolverFinding .., ?_⟩
    intro finding member
    rw [analyzed] at member
    exact isAboutGroup_of_mem_groupFindings member
  · intro undeclared
    have absent := serverGroup?_eq_none undeclared
    rw [analyze, judged, judgeHost_of_no_group nonempty named absent]
    refine evidence_eq_nil fun group => ?_
    split <;> simp

/-- A group with a cloud endpoint, a public host, an address and a server that
is looked up again and again. -/
def mixedGroup : ConfigTree where
  directives := #[
    ⟨0, "upstream", ["backend"], true, none⟩,
    ⟨1, "server", ["app.herokuapp.com:443"], false, none⟩,
    ⟨1, "server", ["api.example.com"], false, none⟩,
    ⟨1, "server", ["10.0.0.1"], false, none⟩,
    ⟨1, "server", ["late.example.com", "resolve"], false, none⟩,
    ⟨0, "proxy_pass", ["http://backend"], false, none⟩]
  rootLine := none
  parent_le := by decide

theorem mixedGroup_reports_cloud_server :
    6 ∈ mixedGroup.walk ∧
      mixedGroup.firstArgument? 6 = some "http://backend" ∧
      ProxyTarget.extract "http://backend" =
        .ok ⟨some "http", "backend", none⟩ ∧
      mixedGroup.resolveHost 6 "backend" = .resolved "backend" ∧
      isAddress "backend" = false ∧
      mixedGroup.DeclaresGroup "backend" 0 1 ∧
      ∃ finding ∈ mixedGroup.analyze 6, finding.severity = .high ∧
        mixedGroup.snapshot 2 ∈ finding.evidence := by
  have placed : 6 ∈ mixedGroup.walk := by decide +kernel
  have argument : mixedGroup.firstArgument? 6 = some "http://backend" := by
    decide +kernel
  have extracted : ProxyTarget.extract "http://backend" =
      .ok ⟨some "http", "backend", none⟩ := by decide +kernel
  have folded : mixedGroup.resolveHost 6 "backend" = .resolved "backend" := by
    decide +kernel
  have named : isAddress "backend" = false := by decide +kernel
  have declared : mixedGroup.DeclaresGroup "backend" 0 1 :=
    ⟨by decide +kernel, by decide +kernel, by decide +kernel⟩
  refine ⟨placed, argument, extracted, folded, named, declared, ?_⟩
  have around : 0 ∈ mixedGroup.enclosing 6 := by decide +kernel
  obtain ⟨cloud, plain, high, medium, divides, analyzed, severity, _, evidence,
    _⟩ :=
    (analyze_group_accounts_for_servers mixedGroup 6 _ "backend" _ placed
      argument extracted folded (by decide) named).1 ⟨0, around, 1, declared⟩
  have server : 2 ∈ cloud :=
    (divides.mem_cloud 2).2 ⟨mem_groupServers.2 ⟨0, around, 1, declared,
        by decide +kernel, by decide +kernel⟩, "Heroku", by decide +kernel,
      "app.herokuapp.com:443", ⟨none, "app.herokuapp.com", some "443"⟩,
      by decide +kernel, by decide +kernel, by decide +kernel⟩
  refine ⟨high, ?_, severity, ?_⟩
  · simp [analyzed, List.ne_nil_of_mem server]
  · rw [evidence]
    exact List.mem_map_of_mem server

end ConfigTree

end ProxyLint
