/-!
# The directive tree

A configuration is kept as one array of directives in the order in which they
were added.  A directive is addressed by its position, counted from one, and
the number zero stands for the root block around the whole configuration.

Every directive records the block that holds it.  That block is an older one
or the directive itself.  Children are read off these records, so the two
directions of the tree cannot disagree.  A directive that holds itself stands
outside the document, because nothing that starts at the root reaches it.  All
others have larger numbers than the blocks around them, which bounds every
traversal.
-/

namespace ProxyLint

structure Directive where
  /-- The number of the block that holds the directive. -/
  parent : Nat
  name : String
  arguments : List String
  opensBlock : Bool
  line : Option Nat
deriving DecidableEq, Repr

@[ext]
structure ConfigTree where
  directives : Array Directive
  /-- The line of the root block, which a parsed configuration does not have. -/
  rootLine : Option Nat
  parent_le : ∀ (index : Nat) (bound : index < directives.size),
    directives[index].parent ≤ index + 1

namespace ConfigTree

/-- The block around the whole configuration. -/
def root : Nat := 0

def empty : ConfigTree where
  directives := #[]
  rootLine := none
  parent_le := by simp

/-- The number of directives, which does not count the root block. -/
def size (tree : ConfigTree) : Nat :=
  tree.directives.size

def contains (tree : ConfigTree) (id : Nat) : Bool :=
  id ≤ tree.size

/-- The directive with a given number.  The root block is not a directive. -/
def find? (tree : ConfigTree) : Nat → Option Directive
  | 0 => none
  | index + 1 => tree.directives[index]?

def name (tree : ConfigTree) (id : Nat) : String :=
  ((tree.find? id).map Directive.name).getD ""

def arguments (tree : ConfigTree) (id : Nat) : List String :=
  ((tree.find? id).map Directive.arguments).getD []

def firstArgument? (tree : ConfigTree) (id : Nat) : Option String :=
  (tree.arguments id).head?

def line (tree : ConfigTree) (id : Nat) : Option Nat :=
  if id = root then tree.rootLine else (tree.find? id).bind Directive.line

def parent? (tree : ConfigTree) (id : Nat) : Option Nat :=
  (tree.find? id).map Directive.parent

@[simp]
theorem find?_root (tree : ConfigTree) : tree.find? 0 = none :=
  rfl

@[simp]
theorem parent?_root (tree : ConfigTree) : tree.parent? 0 = none :=
  rfl

theorem le_size_of_find? {tree : ConfigTree} {id : Nat}
    {directive : Directive} (found : tree.find? id = some directive) :
    id ≤ tree.size := by
  cases id with
  | zero => exact Nat.zero_le _
  | succ index =>
      obtain ⟨bound, _⟩ := Array.getElem?_eq_some_iff.1 found
      exact bound

theorem parent_le_of_find? {tree : ConfigTree} {id : Nat}
    {directive : Directive} (found : tree.find? id = some directive) :
    directive.parent ≤ id := by
  cases id with
  | zero => simp at found
  | succ index =>
      obtain ⟨bound, rfl⟩ := Array.getElem?_eq_some_iff.1 found
      exact tree.parent_le index bound

theorem le_of_parent? {tree : ConfigTree} {id parent : Nat}
    (held : tree.parent? id = some parent) : parent ≤ id := by
  obtain ⟨directive, found, rfl⟩ := Option.map_eq_some_iff.1 held
  exact parent_le_of_find? found

theorem le_size_of_parent? {tree : ConfigTree} {id parent : Nat}
    (held : tree.parent? id = some parent) : id ≤ tree.size := by
  obtain ⟨directive, found, _⟩ := Option.map_eq_some_iff.1 held
  exact le_size_of_find? found

/-- Add a directive to a block of the tree or to itself.  Its number is the new
size. -/
def push (tree : ConfigTree) (directive : Directive)
    (known : directive.parent ≤ tree.size + 1) : ConfigTree where
  directives := tree.directives.push directive
  rootLine := tree.rootLine
  parent_le := by
    intro index bound
    rw [Array.getElem_push]
    split
    next older => exact tree.parent_le index older
    next newest =>
      rw [Array.size_push] at bound
      exact Nat.le_trans known (Nat.succ_le_succ (Nat.le_of_not_lt newest))

/-- Add a directive if the block that shall hold it is then in the tree. -/
def push? (tree : ConfigTree) (directive : Directive) : Option ConfigTree :=
  if known : directive.parent ≤ tree.size + 1 then
    some (tree.push directive known)
  else none

/-- Record the line of a directive or of the root block.  Numbers outside the
tree have no line to record. -/
def setLine (tree : ConfigTree) (id line : Nat) : ConfigTree :=
  match id with
  | 0 => { tree with rootLine := some line }
  | index + 1 =>
      { directives :=
          tree.directives.modify index fun directive =>
            { directive with line := some line }
        rootLine := tree.rootLine
        parent_le := by
          intro position bound
          rw [Array.size_modify] at bound
          rw [Array.getElem_modify]
          split
          · exact tree.parent_le position bound
          · exact tree.parent_le position bound }

@[simp]
theorem size_empty : empty.size = 0 :=
  rfl

@[simp]
theorem size_push (tree : ConfigTree) (directive : Directive)
    (known : directive.parent ≤ tree.size + 1) :
    (tree.push directive known).size = tree.size + 1 := by
  simp [size, push]

/-- The directives directly inside a block, in the order of their numbers. -/
def children (tree : ConfigTree) (id : Nat) : List Nat :=
  (List.range (tree.size + 1)).filter fun child =>
    tree.parent? child == some id

theorem mem_children {tree : ConfigTree} {id child : Nat} :
    child ∈ tree.children id ↔ tree.parent? child = some id := by
  simp only [children, List.mem_filter, beq_iff_eq, and_iff_right_iff_imp,
    List.mem_range]
  intro held
  exact Nat.lt_succ_of_le (le_size_of_parent? held)

/-- Whether a directive is written with braces.  A directive that holds others
is a block however it was added. -/
def isBlock (tree : ConfigTree) (id : Nat) : Bool :=
  id == root || (tree.find? id).any Directive.opensBlock ||
    !(tree.children id).isEmpty

/-- The blocks around a directive, nearest first, the root block last.  For a
directive that holds itself this is the directive alone. -/
def enclosing (tree : ConfigTree) (id : Nat) : List Nat :=
  match tree.parent? id with
  | none => []
  | some parent =>
      parent :: if parent < id then tree.enclosing parent else []
termination_by id

/-- Everything below a block, each directive before what it holds and siblings
in order. -/
def descendants (tree : ConfigTree) (id : Nat) : List Nat :=
  (tree.children id).attach.flatMap fun ⟨child, held⟩ =>
    have := le_size_of_parent? (mem_children.1 held)
    child :: if id < child then tree.descendants child else []
termination_by tree.size - id

/-- All directives of a tree in document order. -/
def walk (tree : ConfigTree) : List Nat :=
  tree.descendants root

theorem descendants_eq (tree : ConfigTree) (id : Nat) :
    tree.descendants id =
      (tree.children id).flatMap fun child =>
        child :: if id < child then tree.descendants child else [] := by
  rw [descendants]
  conv => rhs; rw [← List.attach_map_subtype_val (tree.children id)]
  rw [List.flatMap_map]

theorem enclosing_of_lt {tree : ConfigTree} {id parent : Nat}
    (held : tree.parent? id = some parent) (older : parent < id) :
    tree.enclosing id = parent :: tree.enclosing parent := by
  rw [enclosing]
  simp [held, older]

@[simp]
theorem enclosing_root (tree : ConfigTree) : tree.enclosing 0 = [] := by
  rw [enclosing]
  simp

end ConfigTree

end ProxyLint
