import ProxyLint.Proofs.Configuration.Embedding
import ProxyLint.Proofs.Configuration.Layout

/-!
# One configuration behind another

The directives of one configuration may follow those of another.  Both kinds
of top-level directives then stand in the same root block, the numbers of the
later directives grow by the number of the earlier ones, and their lines grow
as well.  Below the top level the two configurations do not meet, so each
block holds what it held before.
-/

namespace ProxyLint

/-- The number of a directive behind some others.  The root block keeps its
number. -/
def beyond (count id : Nat) : Nat :=
  if id = ConfigTree.root then ConfigTree.root else count + id

@[simp]
theorem beyond_root (count : Nat) : beyond count 0 = 0 :=
  rfl

theorem beyond_of_pos (count : Nat) {id : Nat} (directive : 0 < id) :
    beyond count id = count + id :=
  if_neg (Nat.ne_of_gt directive)

@[simp]
theorem beyond_succ (count index : Nat) :
    beyond count (index + 1) = count + (index + 1) :=
  beyond_of_pos count (Nat.succ_pos index)

theorem beyond_le (count id : Nat) : beyond count id ≤ count + id := by
  cases id with
  | zero => simp
  | succ index => simp

theorem beyond_strictMono (count : Nat) : StrictMono (beyond count) := by
  intro id later smaller
  rw [beyond_of_pos count (Nat.zero_lt_of_lt smaller)]
  have := beyond_le count id
  omega

/-- A directive behind some others, on later lines. -/
def Directive.behind (count lines : Nat) (directive : Directive) : Directive :=
  { directive with
    parent := beyond count directive.parent
    line := directive.line.map (· + lines) }

theorem Directive.parent_behind (count lines : Nat) (directive : Directive) :
    (directive.behind count lines).parent = beyond count directive.parent :=
  rfl

namespace ConfigTree

/-- The directives of a tree and, behind them on later lines, those of another
tree. -/
def followedBy (first second : ConfigTree) (lines : Nat) : ConfigTree where
  directives := first.directives ++
    second.directives.map (Directive.behind first.size lines)
  rootLine := first.rootLine
  parent_le := by
    intro index bound
    rw [Array.getElem_append]
    split
    next inside => exact first.parent_le index inside
    next outside =>
      rw [Array.getElem_map, Directive.parent_behind]
      rw [Array.size_append, Array.size_map] at bound
      have inside : index - first.directives.size < second.directives.size := by
        omega
      have older := second.parent_le (index - first.directives.size) inside
      have moved := beyond_le first.directives.size
        second.directives[index - first.directives.size].parent
      change beyond first.directives.size _ ≤ index + 1
      omega

variable (first second : ConfigTree) (lines : Nat)

@[simp]
theorem size_followedBy :
    (first.followedBy second lines).size = first.size + second.size := by
  simp [size, followedBy]

theorem find?_followedBy_of_le {id : Nat} (inside : id ≤ first.size) :
    (first.followedBy second lines).find? id = first.find? id := by
  cases id with
  | zero => rfl
  | succ index => exact Array.getElem?_append_left inside

theorem arguments_followedBy_of_le {id : Nat} (inside : id ≤ first.size) :
    (first.followedBy second lines).arguments id = first.arguments id := by
  rw [arguments, find?_followedBy_of_le first second lines inside, arguments]

theorem find?_followedBy_beyond (id : Nat) :
    (first.followedBy second lines).find? (beyond first.size id) =
      (second.find? id).map (Directive.behind first.size lines) := by
  cases id with
  | zero => rfl
  | succ index =>
      have outside : first.directives.size ≤ first.size + index :=
        Nat.le_add_right _ _
      have position : first.size + index - first.directives.size = index :=
        Nat.add_sub_cancel_left ..
      rw [beyond_succ, ← Nat.add_assoc, find?, followedBy,
        Array.getElem?_append_right outside, position, Array.getElem?_map]
      rfl

theorem parent?_followedBy_beyond (id : Nat) :
    (first.followedBy second lines).parent? (beyond first.size id) =
      (second.parent? id).map (beyond first.size) := by
  rw [parent?, find?_followedBy_beyond, Option.map_map, parent?,
    Option.map_map]
  rfl

theorem name_followedBy_beyond (id : Nat) :
    (first.followedBy second lines).name (beyond first.size id) =
      second.name id := by
  rw [name, find?_followedBy_beyond, Option.map_map]
  rfl

theorem arguments_followedBy_beyond (id : Nat) :
    (first.followedBy second lines).arguments (beyond first.size id) =
      second.arguments id := by
  rw [arguments, find?_followedBy_beyond, Option.map_map]
  rfl

theorem line_followedBy_beyond {id : Nat} (directive : 0 < id) :
    (first.followedBy second lines).line (beyond first.size id) =
      (second.line id).map (· + lines) := by
  have placed : beyond first.size id ≠ root := by
    rw [beyond_of_pos first.size directive, root]
    omega
  have present : id ≠ root := Nat.ne_of_gt directive
  rw [line, if_neg placed, find?_followedBy_beyond, line, if_neg present,
    Option.bind_map, Option.map_bind]
  rfl

/-- Nothing but its first directives stands behind the empty tree. -/
theorem followedBy_empty : first.followedBy empty lines = first := by
  ext1
  · simp [followedBy, empty]
  · rfl

theorem followedBy_push (directive : Directive)
    (known : directive.parent ≤ second.size + 1)
    (placed : (directive.behind first.size lines).parent ≤
      (first.followedBy second lines).size + 1) :
    first.followedBy (second.push directive known) lines =
      (first.followedBy second lines).push
        (directive.behind first.size lines) placed := by
  ext1
  · simp only [followedBy, push, Array.map_push, Array.append_push]
  · rfl

end ConfigTree

theorem childrenFrom_behind (count lines block first : Nat)
    (directives : List Directive) :
    childrenFrom (beyond count block) (count + (first + 1))
        (directives.map (Directive.behind count lines)) =
      (childrenFrom block (first + 1) directives).map (beyond count) := by
  induction directives generalizing first with
  | nil => rfl
  | cons directive directives ih =>
      have same : (directive.behind count lines).parent =
          beyond count block ↔ directive.parent = block :=
        (beyond_strictMono count).injective.eq_iff
      rw [List.map_cons, childrenFrom, Nat.add_assoc count, ih (first + 1),
        childrenFrom]
      by_cases held : directive.parent = block
      · rw [if_pos held, if_pos (same.2 held), List.map_cons, beyond_succ]
      · rw [if_neg held, if_neg (mt same.1 held)]

namespace ConfigTree

variable (first second : ConfigTree) (lines : Nat)

theorem children_followedBy (block : Nat) :
    (first.followedBy second lines).children block =
      first.children block ++
        childrenFrom block (first.size + 1)
          (second.directives.toList.map (Directive.behind first.size lines)) :=
  by
  rw [children_eq_childrenFrom, followedBy, Array.toList_append,
    Array.toList_map, childrenFrom_append, ← children_eq_childrenFrom,
    Array.length_toList, Nat.add_comm 1]
  rfl

/-- The blocks of the first tree hold what they held. -/
theorem children_followedBy_of_le {block : Nat} (nested : 0 < block)
    (inside : block ≤ first.size) :
    (first.followedBy second lines).children block = first.children block := by
  rw [children_followedBy, childrenFrom_eq_nil, List.append_nil]
  intro directive member
  obtain ⟨original, _, rfl⟩ := List.mem_map.1 member
  rw [Directive.parent_behind]
  cases original.parent with
  | zero =>
      rw [beyond_root]
      omega
  | succ index =>
      rw [beyond_succ]
      omega

/-- The root block holds the top-level directives of both trees. -/
theorem children_followedBy_root :
    (first.followedBy second lines).children root =
      first.children root ++
        (second.children root).map (beyond first.size) := by
  rw [children_followedBy, children_eq_childrenFrom second]
  exact congrArg _ (childrenFrom_behind first.size lines root 0 _)

/-- The blocks of the second tree hold what they held. -/
theorem children_followedBy_beyond {block : Nat} (nested : 0 < block) :
    (first.followedBy second lines).children (beyond first.size block) =
      (second.children block).map (beyond first.size) := by
  have empty : first.children (beyond first.size block) = [] := by
    apply List.eq_nil_iff_forall_not_mem.2
    intro child held
    have parent := mem_children.1 held
    have older := le_of_parent? parent
    have bound := le_size_of_parent? parent
    rw [beyond_of_pos first.size nested] at older
    omega
  rw [children_followedBy, empty, List.nil_append,
    children_eq_childrenFrom second]
  exact childrenFrom_behind first.size lines block 0 _

/-- The first tree stands in the whole in its place. -/
theorem embeds_first :
    Embeds (fun id => id) first (first.followedBy second lines) where
  increasing := strictMono_id
  parent?_eq id inside := by
    rw [parent?, find?_followedBy_of_le first second lines inside,
      Option.map_id']
    rfl
  name_eq id inside := by
    rw [name, find?_followedBy_of_le first second lines inside]
    rfl

/-- The second tree stands in the whole behind the first one. -/
theorem embeds_second :
    Embeds (beyond first.size) second (first.followedBy second lines) where
  increasing := beyond_strictMono first.size
  parent?_eq id _ := parent?_followedBy_beyond first second lines id
  name_eq id _ := name_followedBy_beyond first second lines id

end ConfigTree

end ProxyLint
