import ProxyLint.Proofs.Configuration.Blocks
import ProxyLint.Proofs.Configuration.Grammar

/-!
# Items laid out in a tree

A list of items is laid out as directives in document order, each block right
before what it holds.  The main statement is that the tree of such a layout
has one directive for every item, with the words of the item, the same items
as children and numbers that increase in document order.
-/

namespace ProxyLint

/-- The directives of some items inside a block, the first of which gets the
number `first`. -/
inductive LaidOut : Nat → Nat → List ConfigItem → List Directive → Prop where
  | empty {block first : Nat} : LaidOut block first [] []
  | simple {block first : Nat} {items : List ConfigItem}
      {directives : List Directive} (name : String) (arguments : List String)
      (line : Option Nat) (rest : LaidOut block (first + 1) items directives) :
      LaidOut block first (.simple name arguments :: items)
        (⟨block, name, arguments, false, line⟩ :: directives)
  | block {block first : Nat} {body items : List ConfigItem}
      {inner directives : List Directive} (name : String)
      (arguments : List String) (line : Option Nat)
      (inside : LaidOut first (first + 1) body inner)
      (rest : LaidOut block (first + 1 + inner.length) items directives) :
      LaidOut block first (.block name arguments body :: items)
        (⟨block, name, arguments, true, line⟩ :: (inner ++ directives))

/-- The numbers of those directives of a list that a block holds, if the first
directive of the list has the number `first`. -/
def childrenFrom (block : Nat) : Nat → List Directive → List Nat
  | _, [] => []
  | first, directive :: directives =>
      if directive.parent = block then
        first :: childrenFrom block (first + 1) directives
      else childrenFrom block (first + 1) directives

theorem childrenFrom_append (block first : Nat)
    (directives later : List Directive) :
    childrenFrom block first (directives ++ later) =
      childrenFrom block first directives ++
        childrenFrom block (first + directives.length) later := by
  induction directives generalizing first with
  | nil => rfl
  | cons directive directives ih =>
      have shift : first + 1 + directives.length =
          first + (directives.length + 1) := by
        omega
      by_cases held : directive.parent = block <;>
        simp [childrenFrom, held, ih, shift]

theorem childrenFrom_eq_nil {block first : Nat} {directives : List Directive}
    (elsewhere : ∀ directive ∈ directives, directive.parent ≠ block) :
    childrenFrom block first directives = [] := by
  induction directives generalizing first with
  | nil => rfl
  | cons directive directives ih =>
      rw [childrenFrom, if_neg (elsewhere directive List.mem_cons_self)]
      exact ih fun other member =>
        elsewhere other (List.mem_cons_of_mem _ member)

theorem childrenFrom_eq_filter (block first : Nat)
    (directives : List Directive) :
    childrenFrom block first directives =
      (List.range' first directives.length).filter fun id =>
        directives[id - first]?.map Directive.parent == some block := by
  induction directives generalizing first with
  | nil => rfl
  | cons directive directives ih =>
      have tail : ∀ id ∈ List.range' (first + 1) directives.length,
          ((directive :: directives)[id - first]?.map Directive.parent ==
            some block) =
          (directives[id - (first + 1)]?.map Directive.parent ==
            some block) := by
        intro id member
        have bound := (List.mem_range'_1.1 member).1
        obtain ⟨offset, rfl⟩ := Nat.exists_eq_add_of_le bound
        have position : first + 1 + offset - first = offset + 1 := by omega
        simp [position]
      rw [childrenFrom, List.length_cons, List.range'_succ, List.filter_cons,
        List.filter_congr tail, ← ih]
      simp

/-- Laid out items stand in the given block or in one another. -/
theorem LaidOut.parent_cases {block first : Nat} {items : List ConfigItem}
    {directives : List Directive}
    (layout : LaidOut block first items directives) :
    ∀ directive ∈ directives, directive.parent = block ∨
      first ≤ directive.parent ∧
        directive.parent < first + directives.length := by
  induction layout with
  | empty => simp
  | simple name arguments line rest ih =>
      intro directive member
      rw [List.length_cons]
      rcases List.mem_cons.1 member with rfl | member
      · exact .inl rfl
      · rcases ih directive member with here | deeper
        · exact .inl here
        · exact .inr (by omega)
  | block name arguments line inside rest insideIH restIH =>
      intro directive member
      rw [List.length_cons, List.length_append]
      rcases List.mem_cons.1 member with rfl | member
      · exact .inl rfl
      · rcases List.mem_append.1 member with member | member
        · rcases insideIH directive member with here | deeper
          · exact .inr (by omega)
          · exact .inr (by omega)
        · rcases restIH directive member with here | deeper
          · exact .inl here
          · exact .inr (by omega)

/-- Older blocks and newer blocks hold nothing of a layout, except for the one
block that it was laid out in. -/
theorem LaidOut.childrenFrom_eq_nil {block first other : Nat}
    {items : List ConfigItem} {directives : List Directive}
    (layout : LaidOut block first items directives) (differs : other ≠ block)
    (outside : other < first ∨ first + directives.length ≤ other) :
    childrenFrom other first directives = [] := by
  refine ProxyLint.childrenFrom_eq_nil fun directive member => ?_
  rcases layout.parent_cases directive member with here | deeper <;> omega

namespace ConfigTree

theorem children_eq_childrenFrom (tree : ConfigTree) (block : Nat) :
    tree.children block = childrenFrom block 1 tree.directives.toList := by
  have positions : List.range (tree.size + 1) =
      0 :: List.range' 1 tree.directives.toList.length := by
    rw [List.range_eq_range', List.range'_succ]
    simp [size]
  rw [children, positions, childrenFrom_eq_filter]
  simp only [List.filter_cons, parent?_root]
  refine List.filter_congr fun id member => ?_
  obtain ⟨index, rfl⟩ := Nat.exists_eq_add_of_le (List.mem_range'_1.1 member).1
  simp [parent?, Nat.add_comm 1 index, find?]

/-- A list of directives represents a list of items: each directive has the
name and the arguments of its item, opens a block if the item has braces, and
its children represent what the braces hold. -/
inductive Represents (tree : ConfigTree) :
    List Nat → List ConfigItem → Prop where
  | empty : Represents tree [] []
  | simple {id : Nat} {ids : List Nat} {items : List ConfigItem}
      (closed : tree.isBlock id = false) (childless : tree.children id = [])
      (rest : Represents tree ids items) :
      Represents tree (id :: ids)
        (.simple (tree.name id) (tree.arguments id) :: items)
  | block {id : Nat} {ids : List Nat} {body items : List ConfigItem}
      (opened : tree.isBlock id = true)
      (inside : Represents tree (tree.children id) body)
      (rest : Represents tree ids items) :
      Represents tree (id :: ids)
        (.block (tree.name id) (tree.arguments id) body :: items)

/-- A tree represents one list of items only. -/
theorem Represents.unique {tree : ConfigTree} {ids : List Nat}
    {items other : List ConfigItem} (represents : tree.Represents ids items)
    (otherRepresents : tree.Represents ids other) : items = other := by
  induction represents generalizing other with
  | empty =>
      cases otherRepresents
      rfl
  | simple closed childless rest ih =>
      cases otherRepresents with
      | simple _ _ otherRest => rw [ih otherRest]
      | block opened _ _ => simp [closed] at opened
  | block opened inside rest insideIH restIH =>
      cases otherRepresents with
      | simple closed _ _ => simp [opened] at closed
      | block _ otherInside otherRest =>
          rw [insideIH otherInside, restIH otherRest]

/-- Directives with consecutive numbers that hold each other and no other
directives. -/
structure Stretch (tree : ConfigTree) (first : Nat)
    (directives : List Directive) : Prop where
  find?_eq : ∀ offset (bound : offset < directives.length),
    tree.find? (first + offset) = some directives[offset]
  children_eq : ∀ id, first ≤ id → id < first + directives.length →
    tree.children id = childrenFrom id first directives

theorem Stretch.head {tree : ConfigTree} {first : Nat} {directive : Directive}
    {directives : List Directive}
    (stretch : tree.Stretch first (directive :: directives)) :
    tree.find? first = some directive :=
  stretch.find?_eq 0 (by simp)

/-- Leave out a directive at the start, if nothing else in the stretch holds
it. -/
theorem Stretch.tail {tree : ConfigTree} {first : Nat} {directive : Directive}
    {directives : List Directive}
    (stretch : tree.Stretch first (directive :: directives))
    (older : directive.parent ≤ first) :
    tree.Stretch (first + 1) directives where
  find?_eq := by
    intro offset bound
    have found := stretch.find?_eq (offset + 1) (by simpa using bound)
    simpa [Nat.add_assoc, Nat.add_comm 1 offset] using found
  children_eq := by
    intro id lower upper
    rw [stretch.children_eq id (by omega) (by simp; omega), childrenFrom,
      if_neg (by omega)]

theorem Stretch.left {tree : ConfigTree} {block first : Nat}
    {items : List ConfigItem} {directives later : List Directive}
    (stretch : tree.Stretch first (directives ++ later))
    (older : block < first)
    (layout : LaidOut block (first + directives.length) items later) :
    tree.Stretch first directives where
  find?_eq := by
    intro offset bound
    have found := stretch.find?_eq offset (by simp; omega)
    simpa [List.getElem_append_left bound] using found
  children_eq := by
    intro id lower upper
    rw [stretch.children_eq id lower (by simp; omega), childrenFrom_append,
      layout.childrenFrom_eq_nil (by omega) (.inl upper), List.append_nil]

theorem Stretch.right {tree : ConfigTree} {block first : Nat}
    {items : List ConfigItem} {directives later : List Directive}
    (stretch : tree.Stretch first (directives ++ later))
    (older : block < first)
    (layout : LaidOut block first items directives) :
    tree.Stretch (first + directives.length) later where
  find?_eq := by
    intro offset bound
    have found := stretch.find?_eq (directives.length + offset) (by simp; omega)
    simpa [Nat.add_assoc, List.getElem_append_right] using found
  children_eq := by
    intro id lower upper
    rw [stretch.children_eq id (by omega) (by simp; omega),
      childrenFrom_append,
      layout.childrenFrom_eq_nil (by omega) (.inr lower), List.nil_append]

theorem name_of_find? {tree : ConfigTree} {id : Nat} {directive : Directive}
    (found : tree.find? id = some directive) :
    tree.name id = directive.name := by
  simp [name, found]

theorem arguments_of_find? {tree : ConfigTree} {id : Nat}
    {directive : Directive} (found : tree.find? id = some directive) :
    tree.arguments id = directive.arguments := by
  simp [arguments, found]

theorem isBlock_of_find? {tree : ConfigTree} {id : Nat}
    {directive : Directive} (found : tree.find? id = some directive) :
    tree.isBlock id =
      (directive.opensBlock || !(tree.children id).isEmpty) := by
  have notRoot : (id == root) = false := by
    cases id with
    | zero => cases found
    | succ index => rfl
  simp [isBlock, found, notRoot]

/-- A stretch in which items are laid out represents the items and is walked
in the order of its numbers. -/
theorem Stretch.represents_and_walk {tree : ConfigTree} {block first : Nat}
    {items : List ConfigItem} {directives : List Directive}
    (layout : LaidOut block first items directives) (older : block < first)
    (stretch : tree.Stretch first directives) :
    tree.Represents (childrenFrom block first directives) items ∧
      ((childrenFrom block first directives).flatMap fun child =>
        child :: if block < child then tree.descendants child else []) =
          List.range' first directives.length := by
  induction layout with
  | empty => exact ⟨.empty, rfl⟩
  | @simple block first items directives name arguments line rest ih =>
      have found := stretch.head
      obtain ⟨represents, walked⟩ :=
        ih (by omega) (stretch.tail (Nat.le_of_lt older))
      have childless : tree.children first = [] := by
        rw [stretch.children_eq first (by omega) (by simp), childrenFrom,
          if_neg (by simp; omega)]
        exact rest.childrenFrom_eq_nil (by omega) (.inl (by omega))
      have closed : tree.isBlock first = false := by
        rw [isBlock_of_find? found, childless]
        rfl
      rw [childrenFrom, if_pos rfl]
      constructor
      · have represented := Represents.simple closed childless represents
        rwa [name_of_find? found, arguments_of_find? found] at represented
      · rw [List.flatMap_cons, walked, if_pos older, descendants_eq, childless]
        simp [List.range'_succ]
  | @block block first body items inner directives name arguments line inside
      rest insideIH restIH =>
      -- The inner directives stand in the new block, the others around it.
      have found := stretch.head
      have below := stretch.tail (Nat.le_of_lt older)
      obtain ⟨bodyRepresents, bodyWalked⟩ :=
        insideIH (by omega) (below.left (by omega) rest)
      obtain ⟨represents, walked⟩ :=
        restIH (by omega) (below.right (by omega) inside)
      have children : tree.children first =
          childrenFrom first (first + 1) inner := by
        rw [stretch.children_eq first (by omega) (by simp), childrenFrom,
          if_neg (by simp; omega), childrenFrom_append,
          rest.childrenFrom_eq_nil (by omega) (.inl (by omega)),
          List.append_nil]
      have opened : tree.isBlock first = true := by
        rw [isBlock_of_find? found]
        rfl
      rw [childrenFrom, if_pos rfl, childrenFrom_append,
        inside.childrenFrom_eq_nil (by omega) (.inl (by omega)),
        List.nil_append]
      constructor
      · have represented := Represents.block opened
          (children ▸ bodyRepresents) represents
        rwa [name_of_find? found, arguments_of_find? found] at represented
      · rw [List.flatMap_cons, walked, if_pos older, descendants_eq, children,
          bodyWalked, List.length_cons, List.length_append, List.range'_succ,
          List.cons_append, List.range'_append_1]

/-- A tree with nothing but laid out items represents them, and its directives
are numbered in document order. -/
theorem represents_and_walk_of_laidOut {tree : ConfigTree}
    {items : List ConfigItem}
    (layout : LaidOut root 1 items tree.directives.toList) :
    tree.Represents (tree.children root) items ∧
      tree.walk = List.range' 1 tree.size := by
  have stretch : tree.Stretch 1 tree.directives.toList := {
    find?_eq := by
      intro offset bound
      rw [Nat.add_comm, find?]
      simp
    children_eq := fun id _ _ => tree.children_eq_childrenFrom id }
  obtain ⟨represents, walked⟩ :=
    stretch.represents_and_walk layout (by decide)
  rw [← children_eq_childrenFrom] at represents walked
  refine ⟨represents, ?_⟩
  rw [walk, descendants_eq]
  simpa [size] using walked

end ConfigTree

end ProxyLint
