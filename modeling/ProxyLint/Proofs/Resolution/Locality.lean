import ProxyLint.Proofs.Resolution.Transfer

/-!
# What a new directive can change

The findings about a directive rest on what is declared in the blocks around
it and on the servers in the groups among these declarations.  A directive
that is added anywhere else leaves the findings exactly as they were, with all
that they show.
-/

namespace ProxyLint

theorem Finding.moved_same (finding : Finding) :
    finding.moved (fun snapshot => snapshot) = finding := by
  rw [moved, List.map_id']

namespace ConfigTree

/-- Away from the groups that a directive sees, only an assignment, a group or
a resolver in a block around it can change what its judgement rests on. -/
theorem sameSurroundings_push {tree : ConfigTree} {id : Nat}
    {directive : Directive} (present : id ≤ tree.size)
    (known : directive.parent ≤ tree.size + 1)
    (outsideGroups : directive.parent ∉ tree.visible "upstream" id)
    (apart : directive.parent ∉ tree.enclosing id ∨
      directive.name ∉ ["set", "upstream", "resolver"]) :
    SameSurroundings (fun id => id) tree (tree.push directive known) id := by
  constructor
  case inside => exact present
  case arguments_eq => exact arguments_push_of_le known present
  case seesSame =>
    intro kind listed
    refine seesSame_push known (apart.imp_right fun foreign same => ?_)
    exact foreign (same ▸ listed)
  case sameMembers =>
    intro group visible
    constructor
    case children_eq =>
      have other : directive.parent ≠ group := by
        rintro rfl
        exact outsideGroups visible
      rw [children_push, if_neg other, List.append_nil, List.map_id']
    case arguments_eq =>
      intro member held
      exact arguments_push_of_le known (le_size_of_parent? (mem_children.1 held))

/-- The findings about a directive stay the same, down to the texts that they
show, when a directive is added that is no part of it, of a group that it sees
or of a server in such a group, and that is no assignment, group or resolver
in a block around it. -/
theorem analyze_unchanged_by_insertion (tree : ConfigTree) (id : Nat)
    (directive : Directive) (present : tree.contains id = true)
    (known : tree.contains directive.parent = true)
    (elsewhere : directive.parent ≠ id)
    (outsideGroups : directive.parent ∉ tree.visible "upstream" id)
    (outsideServers : ∀ group ∈ tree.visible "upstream" id,
      directive.parent ∉ tree.children group)
    (apart : directive.parent ∉ tree.enclosing id ∨
      directive.name ∉ ["set", "upstream", "resolver"]) :
    ∃ grown, tree.push? directive = some grown ∧
      grown.analyze id = tree.analyze id := by
  have inside : id ≤ tree.size := of_decide_eq_true present
  have older : directive.parent ≤ tree.size + 1 :=
    Nat.le_succ_of_le (of_decide_eq_true known)
  have same := sameSurroundings_push inside older outsideGroups apart
  have own := snapshot_push_of_ne older inside elsewhere
  have servers : ∀ group ∈ tree.visible "upstream" id,
      ∀ server ∈ tree.children group,
        (tree.push directive older).snapshot server =
          tree.snapshot server := by
    intro group visible server held
    have other : directive.parent ≠ server := by
      rintro rfl
      exact outsideServers group visible held
    exact snapshot_push_of_ne older
      (le_size_of_parent? (mem_children.1 held)) other
  have moved : (tree.push directive older).analyze id =
      (tree.analyze id).map (Finding.moved fun snapshot => snapshot) :=
    analyze_eq_moved same (embeds_push older) own servers
  refine ⟨_, push?_eq_some older, ?_⟩
  rw [moved]
  exact List.map_id'' Finding.moved_same _

/-- Two virtual servers that pass requests on to one group of servers. -/
def siblingServers : ConfigTree where
  directives := #[
    ⟨0, "upstream", ["backend"], true, some 1⟩,
    ⟨1, "server", ["api.example.com"], false, some 2⟩,
    ⟨0, "server", [], true, some 4⟩,
    ⟨3, "proxy_pass", ["http://backend"], false, some 5⟩,
    ⟨0, "server", [], true, some 7⟩]
  rootLine := none
  parent_le := by decide

/-- A group that one of the virtual servers declares for itself. -/
def ownGroup : Directive where
  parent := 5
  name := "upstream"
  arguments := ["backend"]
  opensBlock := true
  line := none

theorem siblingServers_unchanged_by_ownGroup :
    (siblingServers.analyze 4).map Finding.severity = [.medium] ∧
      ownGroup.parent ∉ siblingServers.enclosing 4 ∧
      ∃ grown, siblingServers.push? ownGroup = some grown ∧
        grown.analyze 4 = siblingServers.analyze 4 := by
  have reported : (siblingServers.analyze 4).map Finding.severity =
      [.medium] := by decide +kernel
  have outside : ownGroup.parent ∉ siblingServers.enclosing 4 := by
    decide +kernel
  refine ⟨reported, outside, ?_⟩
  exact analyze_unchanged_by_insertion siblingServers 4 ownGroup
    (by decide +kernel) (by decide +kernel) (by decide +kernel)
    (by decide +kernel) (by decide +kernel) (.inl outside)

end ConfigTree

end ProxyLint
