import ProxyLint.Hosts.Address
import ProxyLint.Hosts.CloudEndpoint
import ProxyLint.Hosts.Suffix

/-!
# Classes of hosts

A host is classified by a list of rules, each of which decides or passes.  The
first rule that decides wins.  Names of local networks come first, then cloud
endpoints, then public suffixes, so that a cloud endpoint under a public
suffix is reported with its provider.
-/

namespace ProxyLint

inductive HostClass where
  | address
  | internal
  | publicName
  | cloud (provider : String)
  | unknown
deriving DecidableEq, Repr

namespace HostClass

/-- Whether the addresses behind such a host may change. -/
def needsDynamicResolution : HostClass → Bool
  | .publicName | .cloud _ | .unknown => true
  | .address | .internal => false

def provider? : HostClass → Option String
  | .cloud provider => some provider
  | _ => none

end HostClass

/-- A step of classification, applied to a host in small letters. -/
structure ClassificationRule where
  name : String
  apply : List Char → Option HostClass

namespace Host

def localSuffix (host : List Char) : Option HostClass :=
  if localSuffixes.any fun suffix => suffix.toList.isSuffixOf host then
    some .internal
  else none

def singleLabel (host : List Char) : Option HostClass :=
  if host.contains '.' then none else some .internal

def cloudPattern (host : List Char) : Option HostClass :=
  (cloudProvider? host).map .cloud

/-- The last two labels are a public suffix and another label precedes it. -/
def compoundSuffix (host : List Char) : Option HostClass :=
  match (Text.pieces '.' host).reverse with
  | last :: second :: _ :: _ =>
      if compoundSuffixes.contains (String.ofList (second ++ '.' :: last)) then
        some .publicName
      else none
  | _ => none

/-- The last label is a public suffix and another label precedes it. -/
def publicSuffix (host : List Char) : Option HostClass :=
  match (Text.pieces '.' host).reverse with
  | last :: _ :: _ =>
      if publicSuffixes.contains (String.ofList last) then some .publicName
      else none
  | _ => none

end Host

/-- The rules in the order in which they are tried. -/
def classificationRules : List ClassificationRule :=
  [ ⟨"local-suffix", Host.localSuffix⟩,
    ⟨"single-label", Host.singleLabel⟩,
    ⟨"cloud-pattern", Host.cloudPattern⟩,
    ⟨"compound-tld", Host.compoundSuffix⟩,
    ⟨"public-tld", Host.publicSuffix⟩ ]

/-- The class of a host name.  A name that no rule decides is unknown. -/
def classify (host : String) : HostClass :=
  (classificationRules.findSome? fun rule =>
    rule.apply (host.toList.map Char.toLower)).getD .unknown

def classifyHost (host : String) : HostClass :=
  if isAddress host then .address else classify host

end ProxyLint
