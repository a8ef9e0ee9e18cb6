import ProxyLint.Proofs.Resolution.ServerGroup
import ProxyLint.Proofs.Variables.Transfer

/-!
# Judgements inside another tree

The judgement of a directive rests on its own arguments, on the declarations
that it sees and on the servers in the groups among them.  Where these are the
same in another tree, so is the judgement, up to the new numbers of the
servers, and the findings differ only in how the directives are shown.
-/

namespace ProxyLint

/-- The record of a server under its new number. -/
def FixedServer.placed (place : Nat → Nat) (server : FixedServer) :
    FixedServer :=
  { server with directive := place server.directive }

def ServerInspection.placed (place : Nat → Nat) :
    ServerInspection → ServerInspection
  | .fixed server => .fixed (server.placed place)
  | .resolving => .resolving
  | .unusable address fault => .unusable address fault
  | .settled => .settled

def ServerGroup.placed (place : Nat → Nat) (group : ServerGroup) :
    ServerGroup :=
  { group with servers := group.servers.map (ServerInspection.placed place) }

def Judgement.placed (place : Nat → Nat) : Judgement → Judgement
  | .serverGroup group => .serverGroup (group.placed place)
  | judgement => judgement

/-- A finding whose directives are shown differently. -/
def Finding.moved (move : Snapshot → Snapshot) (finding : Finding) : Finding :=
  { finding with
    primary := move finding.primary
    evidence := finding.evidence.map move }

namespace ServerGroup

theorem fixedServers_placed (place : Nat → Nat) (group : ServerGroup) :
    (group.placed place).fixedServers =
      group.fixedServers.map (FixedServer.placed place) := by
  rw [fixedServers, placed, List.filterMap_map, fixedServers,
    List.map_filterMap]
  congr 1
  funext inspection
  cases inspection <;> rfl

theorem cloudServers_placed (place : Nat → Nat) (group : ServerGroup) :
    (group.placed place).cloudServers =
      group.cloudServers.map (FixedServer.placed place) := by
  rw [cloudServers, fixedServers_placed, List.filter_map]
  rfl

theorem plainServers_placed (place : Nat → Nat) (group : ServerGroup) :
    (group.placed place).plainServers =
      group.plainServers.map (FixedServer.placed place) := by
  rw [plainServers, fixedServers_placed, List.filter_map]
  rfl

end ServerGroup

namespace Advice

theorem cloudServersMessage_placed (place : Nat → Nat) (group : ServerGroup) :
    cloudServersMessage (group.placed place) = cloudServersMessage group := by
  rw [cloudServersMessage, group.cloudServers_placed, List.map_map]
  rfl

theorem plainServersMessage_placed (place : Nat → Nat) (group : ServerGroup) :
    plainServersMessage (group.placed place) = plainServersMessage group := by
  rw [plainServersMessage, group.plainServers_placed, List.map_map]
  rfl

end Advice

namespace ConfigTree

/-- A block holds the same directives with the same arguments in both trees. -/
structure SameMembers (place : Nat → Nat) (tree other : ConfigTree)
    (block : Nat) : Prop where
  children_eq : other.children (place block) =
    (tree.children block).map place
  arguments_eq : ∀ member ∈ tree.children block,
    other.arguments (place member) = tree.arguments member

/-- Everything that the judgement of a directive rests on is the same in both
trees. -/
structure SameSurroundings (place : Nat → Nat) (tree other : ConfigTree)
    (id : Nat) : Prop where
  inside : id ≤ tree.size
  arguments_eq : other.arguments (place id) = tree.arguments id
  seesSame : ∀ kind ∈ ["set", "upstream", "resolver"],
    SeesSame place tree other kind id
  sameMembers : ∀ group ∈ tree.visible "upstream" id,
    SameMembers place tree other group

variable {place : Nat → Nat} {tree other : ConfigTree}

theorem inspectServer_eq_placed {server : Nat}
    (same : other.arguments (place server) = tree.arguments server) :
    other.inspectServer (place server) =
      (tree.inspectServer server).placed place := by
  rw [inspectServer, inspectServer, same,
    firstArgument?_eq_of_arguments_eq same]
  by_cases resolving : (tree.arguments server).contains "resolve"
  · rw [if_pos resolving, if_pos resolving]
    rfl
  · rw [if_neg resolving, if_neg resolving]
    dsimp only
    split
    next => rfl
    next => split <;> rfl

namespace SameMembers

theorem declaredIn_eq {block : Nat} (same : SameMembers place tree other block)
    (embeds : Embeds place tree other) (kind : String) :
    other.declaredIn kind (place block) =
      (tree.declaredIn kind block).map place := by
  rw [declaredIn, same.children_eq, List.filter_map, declaredIn]
  congr 1
  refine List.filter_congr fun member held => ?_
  rw [Function.comp_apply,
    embeds.name_eq member (le_size_of_parent? (mem_children.1 held))]

theorem firstChild?_eq {block : Nat}
    (same : SameMembers place tree other block)
    (embeds : Embeds place tree other) (kind : String) :
    other.firstChild? kind (place block) =
      (tree.firstChild? kind block).map place := by
  rw [firstChild?, ← List.head?_filter, ← declaredIn, same.declaredIn_eq embeds,
    List.head?_map, declaredIn, List.head?_filter, firstChild?]

end SameMembers

theorem groupsNamed_eq_map {id : Nat} (inside : id ≤ tree.size)
    (same : SeesSame place tree other "upstream" id)
    (embeds : Embeds place tree other) (name : String) :
    other.groupsNamed name (place id) =
      (tree.groupsNamed name id).map place := by
  rw [groupsNamed, same.visible_eq embeds inside, List.filter_map, groupsNamed]
  congr 1
  refine List.filter_congr fun group visible => ?_
  rw [Function.comp_apply, same.arguments_eq group visible]

theorem visible_of_mem_groupsNamed {name : String} {id group : Nat}
    (member : group ∈ tree.groupsNamed name id) :
    group ∈ tree.visible "upstream" id :=
  List.mem_of_mem_filter member

theorem serverGroup?_eq_placed {id : Nat} (inside : id ≤ tree.size)
    (same : SeesSame place tree other "upstream" id)
    (sameMembers : ∀ group ∈ tree.visible "upstream" id,
      SameMembers place tree other group)
    (embeds : Embeds place tree other) (host : String) :
    other.serverGroup? (place id) host =
      (tree.serverGroup? id host).map (ServerGroup.placed place) := by
  have members {group : Nat} (member : group ∈ tree.groupsNamed host id) :
      SameMembers place tree other group :=
    sameMembers group (visible_of_mem_groupsNamed member)
  have zone : ((tree.groupsNamed host id).map place).any
        (fun group => (other.firstChild? "zone" group).isSome) =
      (tree.groupsNamed host id).any fun group =>
        (tree.firstChild? "zone" group).isSome := by
    rw [List.any_map, Bool.eq_iff_iff, List.any_eq_true, List.any_eq_true]
    refine exists_congr fun group => and_congr_right fun member => ?_
    rw [Function.comp_apply, (members member).firstChild?_eq embeds,
      Option.isSome_map]
  have servers : ((tree.groupsNamed host id).map place).flatMap
        (other.declaredIn "server") =
      ((tree.groupsNamed host id).flatMap
        (tree.declaredIn "server")).map place := by
    rw [List.flatMap_map, List.map_flatMap]
    exact List.flatMap_congr fun group member =>
      (members member).declaredIn_eq embeds "server"
  have inspections : ((tree.groupsNamed host id).flatMap
        (tree.declaredIn "server")).map (other.inspectServer ∘ place) =
      ((tree.groupsNamed host id).flatMap
        (tree.declaredIn "server")).map
          (ServerInspection.placed place ∘ tree.inspectServer) := by
    refine List.map_congr_left fun server member => ?_
    obtain ⟨group, named, held⟩ := List.mem_flatMap.1 member
    exact inspectServer_eq_placed ((members named).arguments_eq server
      (List.mem_of_mem_filter held))
  rw [serverGroup?, groupsNamed_eq_map inside same embeds, serverGroup?]
  simp only [List.isEmpty_map, List.length_map, zone, servers, List.map_map,
    inspections]
  split
  · rfl
  · simp [ServerGroup.placed, List.map_map]

/-- A host names a group in both trees or in none. -/
theorem serverGroup?_eq_none_iff_placed {id : Nat} (inside : id ≤ tree.size)
    (same : SeesSame place tree other "upstream" id)
    (embeds : Embeds place tree other) (host : String) :
    other.serverGroup? (place id) host = none ↔
      tree.serverGroup? id host = none := by
  rw [serverGroup?_eq_none_iff, groupsNamed_eq_map inside same embeds,
    List.map_eq_nil_iff, serverGroup?_eq_none_iff]

/-- The host of a directive may also be looked up in the other tree. -/
theorem HasNamedHost.placed {id : Nat} {raw host : String}
    {target : ProxyTarget} (known : tree.HasNamedHost id raw target host)
    (same : SeesSame place tree other "set" id)
    (embeds : Embeds place tree other)
    (argument : other.firstArgument? (place id) = some raw) :
    other.HasNamedHost (place id) raw target host where
  argument := argument
  extracted := known.extracted
  folded := by
    rw [same.resolveHost_eq embeds known.inside]
    exact known.folded
  nonempty := known.nonempty
  named := known.named

theorem hasResolver_eq {id : Nat} (inside : id ≤ tree.size)
    (same : SeesSame place tree other "resolver" id)
    (embeds : Embeds place tree other) :
    other.hasResolver (place id) = tree.hasResolver id := by
  rw [hasResolver, hasResolver, same.visible_eq embeds inside,
    List.isEmpty_map]

theorem judge_eq_placed {id : Nat}
    (same : SameSurroundings place tree other id)
    (embeds : Embeds place tree other) :
    other.judge (place id) = (tree.judge id).placed place := by
  have sets := same.seesSame "set" (by simp)
  have upstreams := same.seesSame "upstream" (by simp)
  have resolvers := same.seesSame "resolver" (by simp)
  rw [judge, judge, firstArgument?_eq_of_arguments_eq same.arguments_eq]
  cases tree.firstArgument? id with
  | none => rfl
  | some raw =>
      dsimp only
      split
      next => rfl
      next target _ =>
        rw [sets.resolveHost_eq embeds same.inside]
        split
        next => rfl
        next => rfl
        next host _ =>
          rw [judgeHost, judgeHost, serverGroup?_eq_placed same.inside upstreams
            same.sameMembers embeds, hasResolver_eq same.inside resolvers embeds]
          cases tree.serverGroup? id host with
          | none =>
              dsimp only [Option.map_none]
              split_ifs <;> rfl
          | some group =>
              dsimp only [Option.map_some]
              split_ifs <;> rfl

theorem exists_serverGroup?_of_judge {id : Nat} {group : ServerGroup}
    (judged : tree.judge id = .serverGroup group) :
    ∃ host, tree.serverGroup? id host = some group := by
  rcases tree.judge_cases id with dismissed | ⟨raw, target, host, known⟩
  · rw [judged] at dismissed
    cases dismissed
  · cases found : tree.serverGroup? id host with
    | none =>
        rw [known.judge_of_no_group found] at judged
        split at judged
        next => cases judged
        next => cases judged
    | some foundGroup =>
        rw [known.judge_of_group found] at judged
        cases judged
        exact ⟨host, found⟩

/-- The servers on record in a group are held by blocks that the directive
sees. -/
theorem held_of_mem_fixedServers {id : Nat} {host : String}
    {group : ServerGroup} (found : tree.serverGroup? id host = some group)
    {server : FixedServer} (member : server ∈ group.fixedServers) :
    ∃ declared ∈ tree.visible "upstream" id,
      server.directive ∈ tree.children declared := by
  rw [fixedServers_of_serverGroup? found] at member
  obtain ⟨directive, listed, recorded⟩ := List.mem_filterMap.1 member
  obtain ⟨block, around, named, declares, held, _⟩ :=
    mem_groupServers.1 listed
  rw [directive_of_fixedServer? recorded]
  exact ⟨named, mem_visible.2 ⟨block, around, declares.1, declares.2.1⟩,
    mem_children.2 held⟩

theorem resolverFinding_eq_moved {id : Nat} {move : Snapshot → Snapshot}
    {servers : List FixedServer} (severity : Severity) (message : String)
    (own : other.snapshot (place id) = move (tree.snapshot id))
    (shown : ∀ server ∈ servers, other.snapshot (place server.directive) =
      move (tree.snapshot server.directive)) :
    other.resolverFinding (place id) severity message
        (servers.map (FixedServer.placed place)) =
      (tree.resolverFinding id severity message servers).moved move := by
  have evidence : (servers.map (FixedServer.placed place)).map
        (fun server => other.snapshot server.directive) =
      (servers.map fun server => tree.snapshot server.directive).map move := by
    rw [List.map_map, List.map_map]
    exact List.map_congr_left shown
  rw [resolverFinding, resolverFinding, Finding.moved, own, evidence]

theorem groupFindings_eq_moved {id : Nat} {move : Snapshot → Snapshot}
    {group : ServerGroup}
    (own : other.snapshot (place id) = move (tree.snapshot id))
    (shown : ∀ server ∈ group.fixedServers,
      other.snapshot (place server.directive) =
        move (tree.snapshot server.directive)) :
    other.groupFindings (place id) (group.placed place) =
      (tree.groupFindings id group).map (Finding.moved move) := by
  have cloud (severity : Severity) (message : String) :=
    resolverFinding_eq_moved severity message own
      fun server (member : server ∈ group.cloudServers) =>
        shown server (List.mem_of_mem_filter member)
  have plain (severity : Severity) (message : String) :=
    resolverFinding_eq_moved severity message own
      fun server (member : server ∈ group.plainServers) =>
        shown server (List.mem_of_mem_filter member)
  simp only [groupFindings, group.cloudServers_placed,
    group.plainServers_placed, List.isEmpty_map, cloud, plain,
    Advice.cloudServersMessage_placed, Advice.plainServersMessage_placed,
    List.map_append]
  congr 1
  · split <;> rfl
  · split <;> rfl

/-- Findings are carried along if the directives that they show are. -/
theorem analyze_eq_moved {id : Nat} {move : Snapshot → Snapshot}
    (same : SameSurroundings place tree other id)
    (embeds : Embeds place tree other)
    (own : other.snapshot (place id) = move (tree.snapshot id))
    (servers : ∀ group ∈ tree.visible "upstream" id,
      ∀ server ∈ tree.children group,
        other.snapshot (place server) = move (tree.snapshot server)) :
    other.analyze (place id) = (tree.analyze id).map (Finding.moved move) := by
  have name_eq := embeds.name_eq id same.inside
  have single (severity : Severity) (message : String) :=
    resolverFinding_eq_moved severity message own
      fun server (member : server ∈ ([] : List FixedServer)) => nomatch member
  rw [analyze, judge_eq_placed same embeds, analyze]
  cases judged : tree.judge id with
  | serverGroup group =>
      obtain ⟨host, found⟩ := exists_serverGroup?_of_judge judged
      refine groupFindings_eq_moved own fun server member => ?_
      obtain ⟨declared, visible, held⟩ := held_of_mem_fixedServers found member
      exact servers declared visible server.directive held
  | variableTarget host resolverVisible =>
      cases resolverVisible with
      | true => rfl
      | false =>
          simp only [Judgement.placed, findingsOf, name_eq]
          exact congrArg (fun finding => [finding]) (single _ _)
  | staticTarget target host hostClass =>
      cases hostClass with
      | cloud _ | publicName | unknown =>
          simp only [Judgement.placed, findingsOf, staticFindings, name_eq]
          exact congrArg (fun finding => [finding]) (single _ _)
      | internal | address => rfl
  | _ => rfl

end ConfigTree

end ProxyLint
