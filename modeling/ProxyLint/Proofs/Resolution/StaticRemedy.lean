import ProxyLint.Proofs.Configuration.Amendment
import ProxyLint.Proofs.Hosts.Extraction
import ProxyLint.Proofs.Resolution.ServerGroup
import ProxyLint.Proofs.Variables.Folding

/-!
# Moving a static host into a variable

A finding about a host that is written in the configuration asks for three
directives beside the one that is reported: a resolver, an assignment of the
host to a variable and the same directive with the variable in place of the
host.  The new assignment counts for the new directive whatever was assigned
before, so its host folds to the old one, and the resolver settles the rest.
-/

namespace ProxyLint

namespace Advice

open ProxyTarget

/-- The directive that a finding shows is written with the suggested text. -/
theorem toList_variableTarget (name : String) (target : ProxyTarget) :
    (variableTarget name target).toList =
      name.toList ++ ' ' :: (target.variableText ++ [';']) := by
  cases scheme : target.scheme <;> cases port : target.port <;>
    simp [variableTarget, variableText, schemeText, portText, scheme, port,
      ToString.toString]

theorem isDelimiter_eq_false {character : Char}
    (inside : isSchemeCharacter character = true) :
    isDelimiter character = false := by
  have ascii : ∀ code < 128, isSchemeCharacter (Char.ofNat code) = true →
      isDelimiter (Char.ofNat code) = false := by decide
  have bound : character.toNat < 128 := by
    simp only [isSchemeCharacter, isSchemeStart, Bool.or_eq_true,
      Bool.and_eq_true, decide_eq_true_eq] at inside
    rcases inside with (((⟨_, upper⟩ | digit) | rfl) | rfl) | rfl
    · have most : character.toNat ≤ 122 := UInt32.le_iff_toNat_le.1 upper
      omega
    · have most : character.toNat ≤ 57 := (Char.isDigit_iff_toNat.1 digit).2
      omega
    · decide
    · decide
    · decide
  rw [← Char.ofNat_toNat character] at inside ⊢
  exact ascii _ bound inside

/-- The text of the target with the variable can stand without quotes. -/
theorem needsQuotes_variableText {text : List Char} {target : ProxyTarget}
    (cut : CutFrom text target) : needsQuotes target.variableText = false := by
  have scheme : ∀ character ∈ target.schemeText,
      isDelimiter character = false := by
    rw [schemeText]
    split
    next => simp
    next name given =>
      obtain ⟨first, later, same, starts, inside⟩ := cut.scheme_form name given
      have mark : ∀ character ∈ [':', '/', '/'],
          isDelimiter character = false := by
        simp [isDelimiter, Text.isBlank]
      rw [same, List.forall_mem_append, List.forall_mem_cons]
      refine ⟨⟨?_, fun character member => ?_⟩, mark⟩
      · exact isDelimiter_eq_false (by simp [isSchemeCharacter, starts])
      · exact isDelimiter_eq_false (inside character member)
  have port : ∀ character ∈ target.portText,
      isDelimiter character = false := by
    rw [portText]
    split
    next => simp
    next digits given =>
      refine List.forall_mem_cons.2 ⟨by decide, fun character member => ?_⟩
      have digit := (cut.port_form digits given).2 character member
      exact isDelimiter_eq_false (by simp [isSchemeCharacter, digit])
  have backend : ∀ character ∈ "$backend".toList,
      isDelimiter character = false := by
    simp [isDelimiter, Text.isBlank]
  have bare : ∀ character ∈ target.variableText,
      isDelimiter character = false := by
    rw [variableText, List.forall_mem_append, List.forall_mem_append]
    exact ⟨scheme, backend, port⟩
  rw [needsQuotes, Bool.or_eq_false_iff, List.any_eq_false]
  refine ⟨by simp [variableText], fun character member => ?_⟩
  rw [bare character member]
  exact Bool.false_ne_true

end Advice

namespace ConfigTree

/-- The directives that the finding about a static host asks for, all in the
block of the directive that it is about. -/
structure StaticRemedy (tree : ConfigTree) (id : Nat)
    (target : ProxyTarget) where
  block : Nat
  resolver : Directive
  assignment : Directive
  copy : Directive
  parent?_eq : tree.parent? id = some block
  resolver_parent : resolver.parent = block
  resolver_name : resolver.name = "resolver"
  assignment_parent : assignment.parent = block
  assignment_name : assignment.name = "set"
  assignment_arguments : assignment.arguments = ["$backend", target.host]
  copy_parent : copy.parent = block
  copy_name : copy.name = tree.name id
  copy_arguments : copy.arguments = [String.ofList target.variableText]
  copy_simple : copy.opensBlock = false

namespace StaticRemedy

variable {tree : ConfigTree} {id : Nat} {target : ProxyTarget}
  (remedy : StaticRemedy tree id target)

def directives : List Directive :=
  [remedy.resolver, remedy.assignment, remedy.copy]

theorem block_le : remedy.block ≤ tree.size :=
  Nat.le_trans (le_of_parent? remedy.parent?_eq)
    (le_size_of_parent? remedy.parent?_eq)

theorem exists_grown : ∃ grown, tree.pushAll? remedy.directives = some grown ∧
    ExtendedBy tree remedy.directives grown := by
  apply exists_pushAll?
  intro directive member
  have inBlock : directive.parent = remedy.block := by
    simp only [directives, List.mem_cons, List.not_mem_nil, or_false]
      at member
    rcases member with rfl | rfl | rfl
    · exact remedy.resolver_parent
    · exact remedy.assignment_parent
    · exact remedy.copy_parent
  rw [inBlock]
  exact remedy.block_le

variable {grown : ConfigTree}
  (extended : ExtendedBy tree remedy.directives grown)

include extended

theorem size_grown : grown.size = tree.size + 3 :=
  extended.size_eq

theorem find?_resolver :
    grown.find? (tree.size + 1) = some remedy.resolver :=
  extended.find?_new 0 (show 0 < 3 by decide)

theorem find?_assignment :
    grown.find? (tree.size + 2) = some remedy.assignment :=
  extended.find?_new 1 (show 1 < 3 by decide)

theorem find?_copy : grown.find? grown.size = some remedy.copy := by
  rw [remedy.size_grown extended]
  exact extended.find?_new 2 (show 2 < 3 by decide)

theorem parent?_copy : grown.parent? grown.size = some remedy.block := by
  rw [parent?, remedy.find?_copy extended, ← remedy.copy_parent]
  rfl

theorem arguments_copy :
    grown.arguments grown.size = [String.ofList target.variableText] := by
  rw [arguments, remedy.find?_copy extended, ← remedy.copy_arguments]
  rfl

theorem enclosing_copy : grown.enclosing grown.size =
    remedy.block :: tree.enclosing remedy.block := by
  have older : remedy.block < grown.size := by
    rw [remedy.size_grown extended]
    have := remedy.block_le
    omega
  rw [enclosing_of_lt (remedy.parent?_copy extended) older,
    extended.enclosing_of_le remedy.block_le]

/-- The new directive has no other blocks around it than the old one. -/
theorem enclosing_copy_subset :
    grown.enclosing grown.size ⊆ tree.enclosing id := by
  have around : remedy.block ∈ tree.enclosing id :=
    mem_enclosing.2 ⟨remedy.block, remedy.parent?_eq, .inl rfl⟩
  rw [remedy.enclosing_copy extended]
  intro block member
  rcases List.mem_cons.1 member with rfl | outer
  · exact around
  · exact enclosing_subset around outer

theorem hasResolver_copy : grown.hasResolver grown.size = true := by
  have seen : tree.size + 1 ∈ grown.visible "resolver" grown.size := by
    refine mem_visible.2 ⟨remedy.block, ?_, ?_, ?_⟩
    · rw [remedy.enclosing_copy extended]
      exact List.mem_cons_self
    · rw [parent?, remedy.find?_resolver extended, ← remedy.resolver_parent]
      rfl
    · rw [name, remedy.find?_resolver extended]
      exact remedy.resolver_name
  simp [hasResolver, List.ne_nil_of_mem seen]

omit extended in
theorem dollar_mem_variableText : '$' ∈ target.variableText := by
  simp [ProxyTarget.variableText]

/-- The new directives declare no group of servers, or only one whose name has
a dollar sign. -/
theorem serverGroup?_copy {host : String} (constant : '$' ∉ host.toList)
    (absent : tree.serverGroup? id host = none) :
    grown.serverGroup? grown.size host = none := by
  have undeclared := undeclared_of_serverGroup? absent
  apply serverGroup?_eq_none
  rintro block around group ⟨held, kind, named⟩
  have outside := remedy.enclosing_copy_subset extended around
  obtain ⟨directive, found, _⟩ := Option.map_eq_some_iff.1 held
  rcases extended.le_or_mem_of_find? found with inside | new
  · rw [extended.parent?_of_le inside] at held
    rw [extended.name_of_le inside] at kind
    rw [extended.arguments_of_le inside] at named
    exact undeclared block outside group ⟨held, kind, named⟩
  · have directive_name : directive.name = "upstream" := by
      rw [← kind, name, found]
      rfl
    have directive_arguments : directive.arguments = [host] := by
      rw [← named, arguments, found]
      rfl
    simp only [directives, List.mem_cons, List.not_mem_nil, or_false] at new
    rcases new with rfl | rfl | rfl
    · rw [remedy.resolver_name] at directive_name
      exact absurd directive_name (by decide)
    · rw [remedy.assignment_name] at directive_name
      exact absurd directive_name (by decide)
    · rw [remedy.copy_arguments] at directive_arguments
      obtain rfl := (List.cons.inj directive_arguments).1
      rw [String.toList_ofList] at constant
      exact constant dollar_mem_variableText

/-- The new assignment is the last one in the nearest block, unless the new
directive is itself an assignment, and then it gives no value. -/
theorem assignedText?_of_governs {assignment : Nat} {text : String}
    (governs : grown.Governs "backend" grown.size assignment)
    (given : grown.assignedText? assignment = some text) :
    text = target.host := by
  obtain ⟨nearer, block, outer, around, unassigned, assigns, last⟩ := governs
  have found := remedy.find?_assignment extended
  have own : grown.AssignsIn "backend" remedy.block (tree.size + 2) := by
    refine ⟨?_, ?_, ?_⟩
    · rw [parent?, found, ← remedy.assignment_parent]
      rfl
    · rw [name, found]
      exact remedy.assignment_name
    · rw [firstArgument?, arguments, found]
      simp [remedy.assignment_arguments]
  rw [remedy.enclosing_copy extended] at around
  cases nearer with
  | cons inner others =>
      obtain ⟨rfl, _⟩ := List.cons.inj around
      exact absurd own (unassigned _ List.mem_cons_self _)
  | nil =>
      obtain ⟨rfl, _⟩ := List.cons.inj around
      have least := last _ own
      have most := le_size_of_parent? assigns.1
      have size := remedy.size_grown extended
      by_cases newest : assignment = grown.size
      · rw [newest, assignedText?, remedy.arguments_copy extended] at given
        cases given
      · obtain rfl : assignment = tree.size + 2 := by omega
        rw [assignedText?, arguments, found] at given
        simp only [Option.map_some, Option.getD_some,
          remedy.assignment_arguments] at given
        exact (Option.some.inj given).symm

/-- Whatever was assigned before, the variable folds to the host. -/
theorem resolveHost_copy {host : String} (constant : '$' ∉ target.host.toList)
    (nonempty : target.host ≠ "")
    (folded : grown.resolveHost grown.size "$backend" = .resolved host) :
    host = target.host := by
  have mentions : segments "$backend" = .ok [.variable "backend"] := by
    decide +kernel
  obtain ⟨script, _⟩ := (resolveHost_iff_derivation mentions).1 folded
  cases script with
  | mention head rest =>
      cases rest
      cases head with
      | assigned _ governs given cut value =>
          obtain rfl := remedy.assignedText?_of_governs extended governs given
          rw [segments_of_no_dollar constant nonempty] at cut
          obtain rfl := Except.ok.inj cut
          cases value with
          | literal _ rest =>
              cases rest
              simp

/-- The new directive is not reported. -/
theorem analyze_copy {text : List Char}
    (cut : ProxyTarget.CutFrom text target)
    (network : ¬ "unix:".toList <:+: text) (constant : '$' ∉ text)
    (absent : tree.serverGroup? id target.host = none) :
    grown.analyze grown.size = [] := by
  have plain : '$' ∉ target.host.toList := fun member =>
    constant (cut.host_subset member)
  rcases grown.judge_cases grown.size with
    dismissed | ⟨raw, other, host, known⟩
  · exact findingsOf_of_isDismissal dismissed
  · have argument := known.argument
    rw [firstArgument?, remedy.arguments_copy extended] at argument
    obtain rfl := Option.some.inj argument
    have extracted := known.extracted
    rw [cut.extract_variableText network] at extracted
    obtain rfl := Except.ok.inj extracted
    obtain rfl := remedy.resolveHost_copy extended plain cut.host_nonempty
      known.folded
    have ungrouped := remedy.serverGroup?_copy extended plain absent
    have dollar : '$' ∈ (String.ofList target.variableText).toList := by
      rw [String.toList_ofList]
      exact dollar_mem_variableText
    rw [known.analyze_of_variable ungrouped dollar,
      remedy.hasResolver_copy extended, if_pos rfl]

theorem isBlock_copy : grown.isBlock grown.size = false := by
  have childless : grown.children grown.size = [] := by
    refine List.eq_nil_iff_forall_not_mem.2 fun child held => ?_
    have parent := mem_children.1 held
    have least := le_of_parent? parent
    have most := le_size_of_parent? parent
    obtain rfl := Nat.le_antisymm most least
    rw [remedy.parent?_copy extended, Option.some.injEq,
      remedy.size_grown extended] at parent
    have := remedy.block_le
    omega
  have positive : grown.size ≠ root := by
    rw [remedy.size_grown extended]
    exact Nat.succ_ne_zero _
  simp [isBlock, positive, childless, remedy.find?_copy extended,
    remedy.copy_simple]

/-- The new directive is written as the finding shows it. -/
theorem written_copy {text : List Char}
    (cut : ProxyTarget.CutFrom text target) :
    grown.written grown.size =
      Advice.variableTarget (tree.name id) target := by
  have named : grown.name grown.size = tree.name id := by
    rw [name, remedy.find?_copy extended]
    exact remedy.copy_name
  have bare := Advice.needsQuotes_variableText cut
  rw [written, named, remedy.arguments_copy extended,
    remedy.isBlock_copy extended]
  apply String.toList_inj.1
  rw [String.toList_ofList, Advice.toList_variableTarget]
  simp [writtenArgument, bare]

end StaticRemedy

end ConfigTree

end ProxyLint
