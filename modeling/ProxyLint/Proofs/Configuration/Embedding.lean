import ProxyLint.Proofs.Configuration.Insertion
import Mathlib.Data.List.Basic
import Mathlib.Order.Monotone.Basic

/-!
# A tree inside another tree

The directives of a tree may stand in another tree under new numbers, among
directives that were added.  What one of them sees of a kind of declaration is
then the same in both trees, provided that no block around it has got further
declarations of that kind.
-/

namespace ProxyLint

namespace ConfigTree

theorem mem_enclosing {tree : ConfigTree} {id block : Nat} :
    block ∈ tree.enclosing id ↔
      ∃ parent, tree.parent? id = some parent ∧
        (block = parent ∨ parent < id ∧ block ∈ tree.enclosing parent) := by
  rw [enclosing]
  cases held : tree.parent? id with
  | none => simp
  | some parent => by_cases older : parent < id <;> simp [older]

theorem le_of_mem_enclosing {tree : ConfigTree} {id block : Nat}
    (around : block ∈ tree.enclosing id) : block ≤ id := by
  obtain ⟨parent, held, rfl | ⟨older, around⟩⟩ := mem_enclosing.1 around
  · exact le_of_parent? held
  · exact Nat.le_trans (le_of_mem_enclosing around) (Nat.le_of_lt older)
termination_by id

/-- The blocks around a block around a directive are around the directive. -/
theorem enclosing_subset {tree : ConfigTree} {id block : Nat}
    (around : block ∈ tree.enclosing id) :
    tree.enclosing block ⊆ tree.enclosing id := by
  intro outer member
  obtain ⟨parent, held, place⟩ := mem_enclosing.1 around
  rcases place with rfl | ⟨older, around⟩
  · by_cases older : block < id
    · exact mem_enclosing.2 ⟨block, held, .inr ⟨older, member⟩⟩
    · have same : block = id := by
        have := le_of_parent? held
        omega
      exact same ▸ member
  · exact mem_enclosing.2
      ⟨parent, held, .inr ⟨older, enclosing_subset around member⟩⟩
termination_by id

/-- A declaration that a directive sees has no other blocks around it than the
directive. -/
theorem enclosing_subset_of_visible {tree : ConfigTree} {kind : String}
    {id declared : Nat} (visible : declared ∈ tree.visible kind id) :
    tree.enclosing declared ⊆ tree.enclosing id := by
  obtain ⟨block, around, held, _⟩ := mem_visible.1 visible
  intro outer member
  obtain ⟨parent, heldAgain, place⟩ := mem_enclosing.1 member
  obtain rfl := Option.some.inj (held.symm.trans heldAgain)
  rcases place with rfl | ⟨_, member⟩
  · exact around
  · exact enclosing_subset around member

theorem le_size_of_visible {tree : ConfigTree} {kind : String}
    {id declared : Nat} (visible : declared ∈ tree.visible kind id) :
    declared ≤ tree.size := by
  obtain ⟨block, _, held, _⟩ := mem_visible.1 visible
  exact le_size_of_parent? held

/-- The directives of a tree stand in another tree, in the same order, with the
same kinds and in the same blocks. -/
structure Embeds (place : Nat → Nat) (tree other : ConfigTree) : Prop where
  increasing : StrictMono place
  parent?_eq : ∀ id ≤ tree.size,
    other.parent? (place id) = (tree.parent? id).map place
  name_eq : ∀ id ≤ tree.size, other.name (place id) = tree.name id

/-- A directive finds the same declarations of a kind in both trees. -/
structure SeesSame (place : Nat → Nat) (tree other : ConfigTree)
    (kind : String) (id : Nat) : Prop where
  declaredIn_eq : ∀ block ∈ tree.enclosing id,
    other.declaredIn kind (place block) =
      (tree.declaredIn kind block).map place
  arguments_eq : ∀ declared ∈ tree.visible kind id,
    other.arguments (place declared) = tree.arguments declared

section Embedded

variable {place : Nat → Nat} {tree other : ConfigTree}

theorem Embeds.enclosing_eq (embeds : Embeds place tree other) {id : Nat}
    (inside : id ≤ tree.size) :
    other.enclosing (place id) = (tree.enclosing id).map place := by
  rw [enclosing, enclosing.eq_def tree, embeds.parent?_eq id inside]
  cases held : tree.parent? id with
  | none => rfl
  | some parent =>
      by_cases older : parent < id
      · have deeper := embeds.enclosing_eq
          (Nat.le_trans (Nat.le_of_lt older) inside)
        simp [older, embeds.increasing older, deeper]
      · simp [older, embeds.increasing.lt_iff_lt]
termination_by id

theorem SeesSame.visible_eq {kind : String} {id : Nat}
    (same : SeesSame place tree other kind id)
    (embeds : Embeds place tree other) (inside : id ≤ tree.size) :
    other.visible kind (place id) = (tree.visible kind id).map place := by
  rw [visible, embeds.enclosing_eq inside, List.flatMap_map, visible,
    List.map_flatMap]
  exact List.flatMap_congr fun block around => same.declaredIn_eq block around

/-- What a directive sees, the declarations that it sees see as well. -/
theorem SeesSame.of_visible {kind : String} {id declared : Nat}
    (same : SeesSame place tree other kind id)
    (visible : declared ∈ tree.visible kind id) :
    SeesSame place tree other kind declared := by
  have around := enclosing_subset_of_visible visible
  constructor
  case declaredIn_eq =>
    exact fun block member => same.declaredIn_eq block (around member)
  case arguments_eq =>
    intro inner member
    obtain ⟨block, outer, found⟩ := mem_visible.1 member
    exact same.arguments_eq inner
      (mem_visible.2 ⟨block, around outer, found⟩)

end Embedded

section Push

variable {tree : ConfigTree} {directive : Directive}
  (known : directive.parent ≤ tree.size + 1)

/-- A new directive leaves the others in place. -/
theorem embeds_push :
    Embeds (fun id => id) tree (tree.push directive known) where
  increasing := strictMono_id
  parent?_eq id inside := by
    rw [parent?_push_of_le known inside, Option.map_id']
  name_eq id inside := name_push_of_le known inside

/-- A new directive is seen only from inside its block, and only as a
declaration of its kind. -/
theorem seesSame_push {kind : String} {id : Nat}
    (apart : directive.parent ∉ tree.enclosing id ∨ directive.name ≠ kind) :
    SeesSame (fun id => id) tree (tree.push directive known) kind id where
  declaredIn_eq block around := by
    have unseen : ¬ (directive.parent = block ∧ directive.name = kind) := by
      rintro ⟨rfl, rfl⟩
      exact apart.elim (fun outside => outside around) (fun other => other rfl)
    rw [declaredIn_push, if_neg unseen, List.append_nil, List.map_id']
  arguments_eq declared visible :=
    arguments_push_of_le known (le_size_of_visible visible)

end Push

end ConfigTree

end ProxyLint
