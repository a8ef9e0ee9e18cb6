import ProxyLint.Findings.Finding
import ProxyLint.Findings.LogEntry
import ProxyLint.Resolution.Judgement

/-!
# From judgements to findings

Every judgement gives the findings that the user sees and the log entries that
say what was skipped.  Each finding says what is wrong and how to mend it.
-/

namespace ProxyLint

namespace Advice

def ruleName : String := "missing_resolver"

def ruleSummary : String :=
  "Proxy target uses static DNS resolution (resolved only at startup)."

/-- A directive that reaches the same place through a variable. -/
def variableTarget (name : String) (target : ProxyTarget) : String :=
  let scheme := (target.scheme.map fun scheme => s!"{scheme}://").getD ""
  let port := (target.port.map fun port => s!":{port}").getD ""
  s!"{name} {scheme}$backend{port};"

def cloudMessage (name host provider : String) (target : ProxyTarget) :
    String :=
  s!"'{name}' targets {provider} endpoint '{host}'. " ++
  "Cloud provider addresses change frequently and " ++
  "a name resolved once at startup keeps sending traffic to old addresses. " ++
  s!"Resolve it per request: set $backend {host}; " ++
  s!"resolver 8.8.8.8 valid=10s; {variableTarget name target}"

def staticMessage (name host : String) (target : ProxyTarget) : String :=
  s!"'{name}' uses static hostname '{host}'. " ++
  "It is resolved once at startup; if its address " ++
  "changes, traffic goes to the stale address until nginx is restarted. " ++
  "Consider: resolver 8.8.8.8 valid=30s; " ++
  s!"set $backend {host}; {variableTarget name target}"

def missingResolverMessage (name host : String) : String :=
  s!"'{name}' uses a variable but no 'resolver' directive is in scope, " ++
  s!"so '{host}' is never re-resolved. " ++
  "Add: resolver 8.8.8.8 valid=30s; (or your internal DNS server)"

/-- How to make the servers of a group be looked up again. -/
def groupRemedy (hasZone : Bool) : String :=
  if hasZone then
    "Add 'resolve' to each server and configure a 'resolver' directive " ++
    "(nginx 1.27.3+)."
  else
    "Declare a shared memory 'zone' in the upstream, add 'resolve' to each " ++
    "server and configure a 'resolver' directive (nginx 1.27.3+)."

def cloudServerLabel (server : FixedServer) : String :=
  let provider := server.provider.getD ""
  s!"{server.hostname} ({provider})"

def cloudServersMessage (group : ServerGroup) : String :=
  let hosts := Text.joined ", " (group.cloudServers.map cloudServerLabel)
  s!"Upstream '{group.name}' contains cloud provider endpoints " ++
  s!"without the 'resolve' parameter: {hosts}. " ++
  s!"Their addresses change frequently. {groupRemedy group.hasZone}"

def plainServersMessage (group : ServerGroup) : String :=
  let hosts := Text.joined ", " (group.plainServers.map FixedServer.hostname)
  s!"Upstream '{group.name}' has server(s) " ++
  s!"without the 'resolve' parameter: {hosts}. " ++
  groupRemedy group.hasZone

end Advice

namespace ConfigTree

open Advice

/-- A finding of the rule about a directive. -/
def resolverFinding (tree : ConfigTree) (id : Nat) (severity : Severity)
    (message : String) (evidence : List FixedServer) : Finding where
  rule := ruleName
  severity := severity
  summary := ruleSummary
  message := message
  primary := tree.snapshot id
  evidence := evidence.map fun server => tree.snapshot server.directive

/-- One finding for the cloud servers of a group and one for the others. -/
def groupFindings (tree : ConfigTree) (id : Nat)
    (group : ServerGroup) : List Finding :=
  let cloud := group.cloudServers
  let plain := group.plainServers
  (if cloud.isEmpty then []
    else [tree.resolverFinding id .high (cloudServersMessage group) cloud]) ++
  if plain.isEmpty then []
    else [tree.resolverFinding id .medium (plainServersMessage group) plain]

/-- The finding about a host that is written in the configuration. -/
def staticFindings (tree : ConfigTree) (id : Nat) (target : ProxyTarget)
    (host : String) : HostClass → List Finding
  | .cloud provider =>
      [tree.resolverFinding id .high
        (cloudMessage (tree.name id) host provider target) []]
  | .publicName | .unknown =>
      [tree.resolverFinding id .medium
        (staticMessage (tree.name id) host target) []]
  | .internal | .address => []

def findingsOf (tree : ConfigTree) (id : Nat) : Judgement → List Finding
  | .serverGroup group => tree.groupFindings id group
  | .variableTarget host resolverVisible =>
      if resolverVisible then []
      else
        [tree.resolverFinding id .medium
          (missingResolverMessage (tree.name id) host) []]
  | .staticTarget target host hostClass =>
      tree.staticFindings id target host hostClass
  | .noTarget | .unusable _ | .malformedHost _ _ | .requestDependent
  | .emptyHost | .address => []

/-- The entry that says why a directive is not judged. -/
def skipEntry (tree : ConfigTree) (id : Nat) (reason : String) : LogEntry :=
  .debug (s!"Skipping '{tree.written id}' " ++
    s!"on line {writtenLine (tree.line id)}: {reason}")

def requestDependentEntry (tree : ConfigTree) (id : Nat) : LogEntry :=
  tree.skipEntry id "host depends on request data"

def uncompiledEntry (tree : ConfigTree) (id : Nat) (host : String)
    (error : ScriptError) : LogEntry :=
  .debug (s!"Cannot compile host '{host}' " ++
    s!"on line {writtenLine (tree.line id)}: " ++
    (LintError.ofScriptError error).message)

def skippedServerEntry : ServerInspection → Option LogEntry
  | .unusable address fault =>
      some (.debug s!"Skipping upstream server '{address}': {fault.message}")
  | _ => none

/-- The entries about the blocks that share a name. -/
def groupEntries (tree : ConfigTree) (id : Nat)
    (group : ServerGroup) : List LogEntry :=
  (if group.count > 1 then
    [.warn (s!"{group.count} upstream blocks named '{group.name}' " ++
      s!"are visible from line {writtenLine (tree.line id)}, " ++
      "inspecting all of them")]
    else []) ++
  group.servers.filterMap skippedServerEntry

def logOf (tree : ConfigTree) (id : Nat) : Judgement → List LogEntry
  | .unusable fault => [tree.skipEntry id fault.message]
  | .malformedHost host error =>
      [tree.uncompiledEntry id host error, tree.requestDependentEntry id]
  | .requestDependent => [tree.requestDependentEntry id]
  | .serverGroup group => tree.groupEntries id group
  | .noTarget | .emptyHost | .address | .variableTarget _ _
  | .staticTarget _ _ _ => []

def analyze (tree : ConfigTree) (id : Nat) : List Finding :=
  tree.findingsOf id (tree.judge id)

def analysisLog (tree : ConfigTree) (id : Nat) : List LogEntry :=
  tree.logOf id (tree.judge id)

end ConfigTree

end ProxyLint
