import ProxyLint.Configuration.Scope
import ProxyLint.Hosts.Class
import ProxyLint.Hosts.Target

/-!
# Server groups

A proxy target may name a group of servers instead of a host.  Then the
servers in the group decide.  A server with the `resolve` parameter is looked
up again and again, every other server with a host name that may move is
looked up only once.
-/

namespace ProxyLint

/-- A server whose address is fixed when the program starts. -/
structure FixedServer where
  directive : Nat
  hostname : String
  provider : Option String
deriving DecidableEq, Repr

inductive ServerInspection where
  | resolving
  | unusable (address : String) (fault : TargetFault)
  | settled
  | fixed (server : FixedServer)
deriving DecidableEq, Repr

/-- The servers that a name stands for. -/
structure ServerGroup where
  name : String
  /-- How many visible blocks declare the group. -/
  count : Nat
  hasZone : Bool
  servers : List ServerInspection
deriving DecidableEq, Repr

namespace ServerInspection

def fixed? : ServerInspection → Option FixedServer
  | .fixed server => some server
  | _ => none

end ServerInspection

namespace ServerGroup

/-- The servers that need the `resolve` parameter, in order. -/
def fixedServers (group : ServerGroup) : List FixedServer :=
  group.servers.filterMap ServerInspection.fixed?

def cloudServers (group : ServerGroup) : List FixedServer :=
  group.fixedServers.filter fun server => server.provider.isSome

def plainServers (group : ServerGroup) : List FixedServer :=
  group.fixedServers.filter fun server => server.provider.isNone

end ServerGroup

namespace ConfigTree

def inspectServer (tree : ConfigTree) (server : Nat) : ServerInspection :=
  if (tree.arguments server).contains "resolve" then .resolving
  else
    let address := (tree.firstArgument? server).getD ""
    match ProxyTarget.extract address with
    | .error fault => .unusable address fault
    | .ok target =>
        let hostClass := classifyHost target.host
        if hostClass.needsDynamicResolution then
          .fixed ⟨server, target.host, hostClass.provider?⟩
        else .settled

/-- The visible blocks of servers with exactly the given name as argument. -/
def groupsNamed (tree : ConfigTree) (name : String) (id : Nat) : List Nat :=
  (tree.visible "upstream" id).filter fun group =>
    tree.arguments group == [name]

/-- The server group that a host names as seen from a directive.  Several
blocks of one name are inspected together. -/
def serverGroup? (tree : ConfigTree) (id : Nat) (host : String) :
    Option ServerGroup :=
  let groups := tree.groupsNamed host id
  if groups.isEmpty then none
  else some {
    name := host
    count := groups.length
    hasZone := groups.any fun group => (tree.firstChild? "zone" group).isSome
    servers := (groups.flatMap (tree.declaredIn "server")).map
      tree.inspectServer }

/-- Whether a `resolver` is declared in any enclosing block. -/
def hasResolver (tree : ConfigTree) (id : Nat) : Bool :=
  !(tree.visible "resolver" id).isEmpty

end ConfigTree

end ProxyLint
