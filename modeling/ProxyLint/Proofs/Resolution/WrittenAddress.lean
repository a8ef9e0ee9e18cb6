import ProxyLint.Proofs.Hosts.AddressTarget
import ProxyLint.Proofs.Resolution.Judgement
import ProxyLint.Proofs.Variables.Folding

/-!
# Directives with an address in their target

The question whether the host is an address comes before all questions about
groups, variables and resolvers.  A directive whose target is written with an
address is therefore never reported, wherever it stands.
-/

namespace ProxyLint

namespace ConfigTree

/-- A host that is an address has no variables to be folded. -/
theorem resolveHost_address (tree : ConfigTree) (id : Nat) {host : List Char}
    (form : Host.IsTargetAddress host) :
    tree.resolveHost id (String.ofList host) =
      .resolved (String.ofList host) := by
  obtain ⟨first, later, same, _⟩ := form.exists_cons
  apply resolveHost_of_no_dollar
  · rw [String.toList_ofList]
    exact form.dollar_not_mem
  · intro empty
    have characters := congrArg String.toList empty
    rw [String.toList_ofList, same] at characters
    cases characters

theorem judge_address_target {tree : ConfigTree} {id : Nat}
    {written : AddressTarget}
    (argument : tree.firstArgument? id =
      some (String.ofList written.characters)) :
    tree.judge id = .unusable .unixSocket ∨ tree.judge id = .address := by
  rcases written.extract_cases with mentioned | ⟨target, extracted, host⟩
  · left
    simp only [judge, argument, mentioned]
  · right
    have folded := tree.resolveHost_address id written.address_form
    rw [← host] at folded
    have address : isAddress target.host = true := by
      rw [isAddress_iff, host, String.toList_ofList]
      exact written.address_form.isAddressText
    have nonempty : target.host.isEmpty = false := by
      obtain ⟨first, later, same, _⟩ := written.address_form.exists_cons
      rw [host, same]
      simp
    rw [judge_eq_judgeHost argument extracted folded, judgeHost, nonempty,
      address]
    rfl

/-- Nothing is reported about a directive whose target is written with an
address, of either version and in any spelling, behind an optional scheme and
before an optional port and any path, query or fragment. -/
theorem analyze_address_target (tree : ConfigTree) (id : Nat)
    (written : AddressTarget)
    (argument : tree.firstArgument? id =
      some (String.ofList written.characters)) :
    tree.analyze id = [] := by
  apply findingsOf_of_isDismissal
  rcases judge_address_target argument with mentioned | address
  · rw [mentioned]
    trivial
  · rw [address]
    trivial

/-- A group that is named like an address, and a target with that address. -/
def addressNamedGroup : ConfigTree where
  directives := #[
    ⟨0, "upstream", ["[::FFFF:10.0.0.1]"], true, some 1⟩,
    ⟨1, "server", ["api.herokuapp.com"], false, some 2⟩,
    ⟨0, "proxy_pass", ["https://[::FFFF:10.0.0.1]:8443/$uri"], false, some 4⟩]
  rootLine := none
  parent_le := by decide

def mappedAddress : AddressTarget where
  scheme := some "https".toList
  address := "[::FFFF:10.0.0.1]".toList
  port := some "8443".toList
  rest := "/$uri".toList
  scheme_form := by
    rintro name ⟨⟩
    exact ⟨'h', "ttps".toList, rfl, rfl, List.all_eq_true.1 rfl⟩
  address_form := by
    have form : Host.IsVersionSixText "::FFFF:10.0.0.1".toList :=
      Host.isVersionSix_iff.1 (by decide +kernel)
    exact .versionSix form
  port_digits := by
    rintro digits ⟨⟩
    exact List.all_eq_true.1 rfl
  rest_starts := by
    rintro character ⟨⟩
    decide

theorem addressNamedGroup_passed_over :
    addressNamedGroup.firstArgument? 3 =
        some (String.ofList mappedAddress.characters) ∧
      addressNamedGroup.groupsNamed "[::FFFF:10.0.0.1]" 3 = [1] ∧
      addressNamedGroup.analyze 3 = [] := by
  have argument : addressNamedGroup.firstArgument? 3 =
      some (String.ofList mappedAddress.characters) := by decide +kernel
  refine ⟨argument, by decide +kernel, ?_⟩
  exact analyze_address_target addressNamedGroup 3 mappedAddress argument

end ConfigTree

end ProxyLint
