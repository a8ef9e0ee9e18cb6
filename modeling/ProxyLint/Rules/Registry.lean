import ProxyLint.Rules.MissingResolver
import ProxyLint.Settings.Settings
import ProxyLint.Text.Keyed

/-!
# The registry of rules

A factory makes a rule from its settings.  The registry keeps one factory for
each type of rule, and registering a type again replaces its factory.  Rules
are made all together: nothing is made unless all settings are usable.
-/

namespace ProxyLint

/-- Makes a rule from its settings, or says why it cannot. -/
abbrev RuleFactory := RuleSettings → Except LintError Rule

structure Registry where
  /-- The factories by the type of rule they make. -/
  factories : List (String × RuleFactory)

namespace MissingResolver

/-- The factory of the rule.  No directives in the settings means the usual
ones. -/
def factory : RuleFactory
  | .missingResolver [] => .ok (rule defaultDirectives)
  | .missingResolver directives => .ok (rule directives)
  | settings => .error (.settings (.foreignSettings settings.typeName))

end MissingResolver

namespace Registry

def empty : Registry where
  factories := []

def register (registry : Registry) (name : String) (factory : RuleFactory) :
    Registry where
  factories := Keyed.put name factory registry.factories

/-- The registry with the rule of this library. -/
def standard : Registry :=
  empty.register Advice.ruleName MissingResolver.factory

def find? (registry : Registry) (name : String) : Option RuleFactory :=
  Keyed.find? name registry.factories

def contains (registry : Registry) (name : String) : Bool :=
  (registry.find? name).isSome

/-- The registered types in increasing order. -/
def names (registry : Registry) : List String :=
  registry.factories.map Prod.fst

/-- Make one rule without looking whether its settings are usable. -/
def createRule (registry : Registry) (settings : RuleSettings) :
    Except LintError Rule :=
  match registry.find? settings.typeName with
  | none => .error (.settings (.unknownRuleType settings.typeName))
  | some factory => factory settings

/-- Make the rules of a list up to the first failure. -/
def createAll (registry : Registry) :
    List RuleSettings → Except LintError (List Rule)
  | [] => .ok []
  | settings :: rest => do
      let rule ← registry.createRule settings
      return rule :: (← registry.createAll rest)

/-- Make all rules of usable settings. -/
def createRules (registry : Registry) (settings : LintSettings) :
    Except LintError (List Rule) :=
  match settings.validate with
  | .error fault => .error (.settings fault)
  | .ok _ => registry.createAll settings.rules

end Registry

end ProxyLint
