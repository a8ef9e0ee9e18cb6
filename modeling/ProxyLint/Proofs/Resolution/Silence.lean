import ProxyLint.Proofs.Hosts.Extraction
import ProxyLint.Proofs.Hosts.VersionSix
import ProxyLint.Proofs.Resolution.Judgement
import ProxyLint.Proofs.Variables.Dependency

/-!
# Hosts that are passed over

Nothing is reported about a host that depends on the request, because it is
not known, nor about a host that is an address, because it is never looked up.
Both may come about through any number of assignments.
-/

namespace ProxyLint

namespace ConfigTree

/-- Nothing is reported about a directive whose host cannot be read or depends
on a variable that has no value before a request. -/
theorem analyze_request_dependent (tree : ConfigTree) (id : Nat)
    (raw : String) (target : ProxyTarget)
    (argument : tree.firstArgument? id = some raw)
    (extracted : ProxyTarget.extract raw = .ok target)
    (unknown : (∃ error, segments target.host = .error error) ∨
      ∃ name seen, tree.DependsOn id target.host name seen ∧
        tree.Unknowable name seen) :
    tree.analyze id = [] := by
  rcases tree.judge_cases id with dismissed | ⟨_, _, host, known⟩
  · exact findingsOf_of_isDismissal dismissed
  · obtain rfl := Option.some.inj (argument.symm.trans known.argument)
    obtain rfl := Except.ok.inj (extracted.symm.trans known.extracted)
    exact absurd known.folded (resolveHost_ne_resolved unknown host)

/-- A backend that is put together from a header of the request. -/
def tenantBackend : ConfigTree where
  directives := #[
    ⟨0, "set", ["$tenant", "$HTTP_X_Tenant"], false, some 1⟩,
    ⟨0, "server", [], true, some 2⟩,
    ⟨2, "set", ["$backend", "$tenant.example.com"], false, some 3⟩,
    ⟨2, "proxy_pass", ["http://$backend:8080"], false, some 4⟩]
  rootLine := none
  parent_le := by decide

theorem tenantBackend_passed_over :
    tenantBackend.DependsOn 4 "$backend" "HTTP_X_Tenant" 1 ∧
      tenantBackend.Unknowable "HTTP_X_Tenant" 1 ∧
      tenantBackend.analyze 4 = [] := by
  have backend : tenantBackend.DependsOn 4 "$backend" "backend" 4 :=
    .mention ⟨[.variable "backend"], by decide +kernel, by decide⟩
  have tenant : tenantBackend.DependsOn 4 "$backend" "tenant" 3 :=
    .assigned backend ⟨by decide +kernel, by decide +kernel⟩
      (assignment?_eq_some_iff.1 (by decide +kernel))
      (show tenantBackend.assignedText? 3 = some "$tenant.example.com" by
        decide +kernel)
      ⟨[.variable "tenant", .literal ".example.com"], by decide +kernel,
        by decide⟩
  have header : tenantBackend.DependsOn 4 "$backend" "HTTP_X_Tenant" 1 :=
    .assigned tenant ⟨by decide +kernel, by decide +kernel⟩
      (assignment?_eq_some_iff.1 (by decide +kernel))
      (show tenantBackend.assignedText? 1 = some "$HTTP_X_Tenant" by
        decide +kernel)
      ⟨[.variable "HTTP_X_Tenant"], by decide +kernel, by decide⟩
  have provided : tenantBackend.Unknowable "HTTP_X_Tenant" 1 :=
    .request (Variable.isBuiltin_iff.1 (by decide +kernel))
  refine ⟨header, provided, ?_⟩
  exact analyze_request_dependent tenantBackend 4 "http://$backend:8080"
    ⟨some "http", "$backend", some "8080"⟩ (by decide +kernel)
    (by decide +kernel) (.inr ⟨_, _, header, provided⟩)

/-- A host with a port behind brackets comes from a variable, because a port
that is written in the target itself is cut off. -/
theorem dollar_mem_of_bracketed_port {tree : ConfigTree} {id : Nat}
    {raw host : String} {target : ProxyTarget} {address port : List Char}
    (extracted : ProxyTarget.extract raw = .ok target)
    (folded : tree.resolveHost id target.host = .resolved host)
    (form : host.toList = '[' :: (address ++ ']' :: ':' :: port))
    (digits : ∀ digit ∈ port, digit.isDigit = true) : '$' ∈ raw.toList := by
  obtain ⟨cut, _⟩ := ProxyTarget.cutFrom_of_extract extracted
  by_cases constant : '$' ∈ target.host.toList
  · exact cut.host_subset constant
  · rw [resolveHost_of_no_dollar constant cut.host_nonempty] at folded
    obtain rfl := HostResolution.resolved.inj folded
    have colon : ':' ∈ target.host.toList := by simp [form]
    have last := cut.getLast?_of_colon colon
    rw [form] at last
    exact absurd last (Host.getLast?_bracketed_port digits)

/-- Nothing is reported about a directive whose host folds to an address, be it
of version four, with a port or without, or of version six, with brackets or
without.  Brackets with a port behind them are taken for a name. -/
theorem analyze_folded_address (tree : ConfigTree) (id : Nat)
    (raw host : String) (target : ProxyTarget)
    (argument : tree.firstArgument? id = some raw)
    (extracted : ProxyTarget.extract raw = .ok target)
    (folded : tree.resolveHost id target.host = .resolved host) :
    (Host.IsAddressText host.toList → tree.analyze id = []) ∧
    ∀ address port, host.toList = '[' :: (address ++ ']' :: ':' :: port) →
      (∀ digit ∈ port, digit.isDigit = true) →
      tree.analyze id =
        match tree.serverGroup? id host with
        | some group => tree.groupFindings id group
        | none =>
            if tree.hasResolver id then []
            else [tree.resolverFinding id .medium
              (Advice.missingResolverMessage (tree.name id) host) []] := by
  constructor
  · intro address
    rw [← isAddress_iff] at address
    rw [analyze, judge_eq_judgeHost argument extracted folded, judgeHost,
      address]
    split <;> rfl
  · intro address port form digits
    have dollar := dollar_mem_of_bracketed_port extracted folded form digits
    have nonempty : host ≠ "" := by
      rintro rfl
      cases form
    have named : isAddress host = false := by
      rw [← Bool.not_eq_true, isAddress_iff, form]
      exact Host.not_isAddressText_of_bracketed_port digits
    have known : tree.HasNamedHost id raw target host :=
      ⟨argument, extracted, folded, nonempty, named⟩
    cases found : tree.serverGroup? id host with
    | some group => exact known.analyze_of_group found
    | none => exact known.analyze_of_variable found dollar

/-- Two addresses with ports that are assigned to variables. -/
def addressedBackends : ConfigTree where
  directives := #[
    ⟨0, "set", ["$four", "10.0.0.1:8080"], false, some 1⟩,
    ⟨0, "set", ["$six", "[::1]:8080"], false, some 2⟩,
    ⟨0, "proxy_pass", ["http://$four"], false, some 3⟩,
    ⟨0, "proxy_pass", ["http://$six"], false, some 4⟩]
  rootLine := none
  parent_le := by decide

theorem addressedBackends_judged :
    addressedBackends.analyze 3 = [] ∧
      addressedBackends.analyze 4 =
        [addressedBackends.resolverFinding 4 .medium
          (Advice.missingResolverMessage "proxy_pass" "[::1]:8080") []] := by
  have silent := (analyze_folded_address addressedBackends 3 "http://$four"
    "10.0.0.1:8080" ⟨some "http", "$four", none⟩ (by decide +kernel)
    (by decide +kernel) (by decide +kernel)).1
  have reported := (analyze_folded_address addressedBackends 4 "http://$six"
    "[::1]:8080" ⟨some "http", "$six", none⟩ (by decide +kernel)
    (by decide +kernel) (by decide +kernel)).2
  have ungrouped : addressedBackends.serverGroup? 4 "[::1]:8080" = none := by
    decide +kernel
  have unresolved : addressedBackends.hasResolver 4 = false := by
    decide +kernel
  constructor
  · exact silent (isAddress_iff.1 (by decide +kernel))
  · have findings := reported [':', ':', '1'] ['8', '0', '8', '0'] (by decide)
      (by simp)
    rw [ungrouped, unresolved] at findings
    exact findings

/-- The address in brackets is one, and the directive is reported for it. -/
theorem addressedBackends_reported_for_address :
    addressedBackends.firstArgument? 4 = some "http://$six" ∧
      ProxyTarget.extract "http://$six" = .ok ⟨some "http", "$six", none⟩ ∧
      addressedBackends.resolveHost 4 "$six" = .resolved "[::1]:8080" ∧
      Host.IsVersionSixText "::1".toList ∧
      addressedBackends.analyze 4 ≠ [] := by
  refine ⟨?_, ?_, ?_, ?_, ?_⟩
  · decide +kernel
  · decide +kernel
  · decide +kernel
  · exact Host.isVersionSix_iff.1 (by decide +kernel)
  · decide +kernel

end ConfigTree

end ProxyLint
