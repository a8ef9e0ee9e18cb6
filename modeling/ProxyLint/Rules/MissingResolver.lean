import ProxyLint.Resolution.Advice
import ProxyLint.Rules.Rule

/-!
# The missing resolver rule

The rule audits the directives that pass requests on to another host and never
fails.
-/

namespace ProxyLint

namespace MissingResolver

def description : String :=
  "A proxy target with a static hostname is resolved once when nginx " ++
  "starts, so traffic may keep going to stale addresses. " ++
  "Cloud load balancers and CDNs change addresses frequently. " ++
  "Use a variable together with a 'resolver' directive, or an upstream " ++
  "whose servers carry the 'resolve' parameter (nginx 1.27.3+)."

def helpUrl : String :=
  "https://gixy.getpagespeed.com/en/plugins/missing_resolver/"

/-- The directives that are audited if the settings name none. -/
def defaultDirectives : List String :=
  ["proxy_pass", "fastcgi_pass", "uwsgi_pass", "scgi_pass", "grpc_pass"]

def audit (tree : ConfigTree) (id : Nat) : Audit where
  findings := tree.analyze id
  log := tree.analysisLog id
  failure := none

/-- The rule for a list of directive names. -/
def rule (directives : List String) : Rule where
  name := Advice.ruleName
  summary := Advice.ruleSummary
  description := description
  helpUrl := helpUrl
  directives := directives
  audit := audit

end MissingResolver

end ProxyLint
