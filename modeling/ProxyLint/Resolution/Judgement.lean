import ProxyLint.Resolution.ServerGroup
import ProxyLint.Variables.Folding

/-!
# Judging a proxy directive

A directive is judged by its first argument.  The target is cut into parts,
the variables of its host are folded, and then the questions are asked in
order: is the host an address, does it name a server group, does the target
mention variables, and what kind of host is it.  The judgement is the last
answer and says nothing of the wording of findings.
-/

namespace ProxyLint

inductive Judgement where
  | noTarget
  | unusable (fault : TargetFault)
  | malformedHost (host : String) (error : ScriptError)
  | requestDependent
  | emptyHost
  | address
  | serverGroup (group : ServerGroup)
  | variableTarget (host : String) (resolverVisible : Bool)
  | staticTarget (target : ProxyTarget) (host : String) (hostClass : HostClass)
deriving DecidableEq, Repr

namespace ConfigTree

def judgeHost (tree : ConfigTree) (id : Nat) (raw : String)
    (target : ProxyTarget) (host : String) : Judgement :=
  if host.isEmpty then .emptyHost
  else if isAddress host then .address
  else
    match tree.serverGroup? id host with
    | some group => .serverGroup group
    | none =>
        if raw.toList.contains '$' then
          .variableTarget host (tree.hasResolver id)
        else .staticTarget target host (classify host)

def judge (tree : ConfigTree) (id : Nat) : Judgement :=
  match tree.firstArgument? id with
  | none => .noTarget
  | some raw =>
      match ProxyTarget.extract raw with
      | .error fault => .unusable fault
      | .ok target =>
          match tree.resolveHost id target.host with
          | .malformed error => .malformedHost target.host error
          | .requestDependent => .requestDependent
          | .resolved host => tree.judgeHost id raw target host

end ConfigTree

end ProxyLint
