import ProxyLint.Proofs.Configuration.Embedding

/-!
# Amending a configuration

Two ways of mending a configuration leave all directives in their places.  One
adds directives behind the others, and one gives some directives a further
argument.
-/

namespace ProxyLint

namespace ConfigTree

/-- Add directives one after the other. -/
def pushAll? (tree : ConfigTree) (directives : List Directive) :
    Option ConfigTree :=
  directives.foldlM push? tree

/-- A tree has the directives of another one and then further ones. -/
structure ExtendedBy (tree : ConfigTree) (directives : List Directive)
    (grown : ConfigTree) : Prop where
  size_eq : grown.size = tree.size + directives.length
  find?_of_le : ∀ id ≤ tree.size, grown.find? id = tree.find? id
  find?_new : ∀ index < directives.length,
    grown.find? (tree.size + 1 + index) = directives[index]?

/-- Directives in blocks of the tree can always be added. -/
theorem exists_pushAll? {tree : ConfigTree} {directives : List Directive}
    (known : ∀ directive ∈ directives, directive.parent ≤ tree.size) :
    ∃ grown, tree.pushAll? directives = some grown ∧
      ExtendedBy tree directives grown := by
  induction directives generalizing tree with
  | nil => exact ⟨tree, rfl, rfl, fun _ _ => rfl, by simp⟩
  | cons directive later ih =>
      obtain ⟨bound, bounds⟩ := List.forall_mem_cons.1 known
      have older := Nat.le_succ_of_le bound
      have laterKnown : ∀ next ∈ later,
          next.parent ≤ (tree.push directive older).size := by
        intro next member
        rw [size_push]
        exact Nat.le_succ_of_le (bounds next member)
      obtain ⟨grown, pushed, extended⟩ := ih laterKnown
      refine ⟨grown, ?_, ?_⟩
      · rw [pushAll?, List.foldlM_cons, push?_eq_some older]
        exact pushed
      · constructor
        case size_eq =>
          rw [extended.size_eq, size_push, List.length_cons]
          omega
        case find?_of_le =>
          intro id inside
          rw [extended.find?_of_le id (by rw [size_push]; omega),
            find?_push_of_le older inside]
        case find?_new =>
          intro index inside
          cases index with
          | zero =>
              rw [extended.find?_of_le _ (by simp), Nat.add_zero,
                find?_push_new older]
              rfl
          | succ index =>
              have found := extended.find?_new index
                (Nat.lt_of_succ_lt_succ inside)
              rw [size_push] at found
              rw [List.getElem?_cons_succ, ← found]
              congr 1
              omega

namespace ExtendedBy

variable {tree grown : ConfigTree} {directives : List Directive}

theorem parent?_of_le (extended : ExtendedBy tree directives grown) {id : Nat}
    (inside : id ≤ tree.size) : grown.parent? id = tree.parent? id := by
  rw [parent?, parent?, extended.find?_of_le id inside]

theorem name_of_le (extended : ExtendedBy tree directives grown) {id : Nat}
    (inside : id ≤ tree.size) : grown.name id = tree.name id := by
  rw [name, name, extended.find?_of_le id inside]

theorem arguments_of_le (extended : ExtendedBy tree directives grown)
    {id : Nat} (inside : id ≤ tree.size) :
    grown.arguments id = tree.arguments id := by
  rw [arguments, arguments, extended.find?_of_le id inside]

theorem embeds (extended : ExtendedBy tree directives grown) :
    Embeds (fun id => id) tree grown where
  increasing := strictMono_id
  parent?_eq id inside := by
    rw [extended.parent?_of_le inside, Option.map_id']
  name_eq id inside := extended.name_of_le inside

theorem enclosing_of_le (extended : ExtendedBy tree directives grown)
    {id : Nat} (inside : id ≤ tree.size) :
    grown.enclosing id = tree.enclosing id := by
  have same := extended.embeds.enclosing_eq inside
  rwa [List.map_id'] at same

/-- Every directive is an old one or one of those that were added. -/
theorem le_or_mem_of_find? (extended : ExtendedBy tree directives grown)
    {id : Nat} {directive : Directive}
    (found : grown.find? id = some directive) :
    id ≤ tree.size ∨ directive ∈ directives := by
  by_cases inside : id ≤ tree.size
  · exact .inl inside
  · have bound := le_size_of_find? found
    rw [extended.size_eq] at bound
    obtain ⟨index, rfl⟩ : ∃ index, id = tree.size + 1 + index :=
      ⟨id - (tree.size + 1), by omega⟩
    have new := extended.find?_new index (by omega)
    exact .inr (List.mem_of_getElem? (new.symm.trans found))

end ExtendedBy

/-- Put an argument behind the others of some directives. -/
def withArgument (tree : ConfigTree) (chosen : List Nat) (argument : String) :
    ConfigTree where
  directives := tree.directives.mapIdx fun index directive =>
    if index + 1 ∈ chosen then
      { directive with arguments := directive.arguments ++ [argument] }
    else directive
  rootLine := tree.rootLine
  parent_le := by
    intro index bound
    rw [Array.getElem_mapIdx]
    have inside : index < tree.directives.size := by simpa using bound
    have parent := tree.parent_le index inside
    split
    · exact parent
    · exact parent

section WithArgument

variable (tree : ConfigTree) (chosen : List Nat) (argument : String)

theorem find?_withArgument (id : Nat) :
    (tree.withArgument chosen argument).find? id =
      (tree.find? id).map fun directive =>
        if id ∈ chosen then
          { directive with arguments := directive.arguments ++ [argument] }
        else directive := by
  cases id with
  | zero => rfl
  | succ index => exact Array.getElem?_mapIdx

theorem parent?_withArgument (id : Nat) :
    (tree.withArgument chosen argument).parent? id = tree.parent? id := by
  rw [parent?, find?_withArgument, Option.map_map, parent?]
  congr 1
  funext directive
  rw [Function.comp_apply]
  split <;> rfl

theorem name_withArgument (id : Nat) :
    (tree.withArgument chosen argument).name id = tree.name id := by
  rw [name, find?_withArgument, Option.map_map, name]
  congr 2
  funext directive
  rw [Function.comp_apply]
  split <;> rfl

theorem size_withArgument :
    (tree.withArgument chosen argument).size = tree.size := by
  simp [size, withArgument]

theorem declaredIn_withArgument (kind : String) (block : Nat) :
    (tree.withArgument chosen argument).declaredIn kind block =
      tree.declaredIn kind block := by
  rw [declaredIn, children, declaredIn, children]
  simp only [size_withArgument, parent?_withArgument, name_withArgument]

theorem embeds_withArgument :
    Embeds (fun id => id) tree (tree.withArgument chosen argument) where
  increasing := strictMono_id
  parent?_eq id _ := by rw [parent?_withArgument, Option.map_id']
  name_eq id _ := name_withArgument tree chosen argument id

variable {tree chosen argument}

theorem arguments_withArgument_of_not_mem {id : Nat} (spared : id ∉ chosen) :
    (tree.withArgument chosen argument).arguments id = tree.arguments id := by
  simp [arguments, find?_withArgument, spared]

theorem arguments_withArgument_of_mem {id : Nat} {first : String}
    (present : tree.firstArgument? id = some first) (listed : id ∈ chosen) :
    (tree.withArgument chosen argument).arguments id =
      tree.arguments id ++ [argument] := by
  obtain ⟨directive, found⟩ := exists_find?_of_firstArgument? present
  simp [arguments, find?_withArgument, found, listed]

/-- The first argument stays the first one. -/
theorem firstArgument?_withArgument {id : Nat} {first : String}
    (present : tree.firstArgument? id = some first) :
    (tree.withArgument chosen argument).firstArgument? id = some first := by
  by_cases listed : id ∈ chosen
  · rw [firstArgument?, arguments_withArgument_of_mem present listed,
      List.head?_append]
    rw [firstArgument?] at present
    rw [present]
    rfl
  · rw [firstArgument?, arguments_withArgument_of_not_mem listed]
    exact present

/-- Declarations of a kind are the same if only directives of another kind get
the argument. -/
theorem seesSame_withArgument {kind other : String} {id : Nat}
    (uniform : ∀ directive ∈ chosen, tree.name directive = other)
    (apart : kind ≠ other) :
    SeesSame (fun id => id) tree (tree.withArgument chosen argument) kind id :=
  by
  constructor
  case declaredIn_eq =>
    intro block _
    rw [declaredIn_withArgument, List.map_id']
  case arguments_eq =>
    intro declared visible
    obtain ⟨_, _, _, named⟩ := mem_visible.1 visible
    apply arguments_withArgument_of_not_mem
    intro listed
    exact apart (named.symm.trans (uniform declared listed))

end WithArgument

end ConfigTree

end ProxyLint
