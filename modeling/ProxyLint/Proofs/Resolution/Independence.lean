import ProxyLint.Proofs.Configuration.Sequel
import ProxyLint.Proofs.Resolution.Locality

/-!
# Configurations that do not meet

If the top level of two configurations declares nothing that directives look
for, the directives of one see nothing of the other when they stand behind
each other in one tree.  Each configuration keeps its findings, and those of
the later one show directives with larger numbers on later lines.
-/

namespace ProxyLint

/-- A snapshot of a directive behind some others, on a later line. -/
def Snapshot.behind (count lines : Nat) (snapshot : Snapshot) : Snapshot where
  node := snapshot.node + count
  line := snapshot.line.map (· + lines)
  text := snapshot.text

namespace ConfigTree

/-- The top level declares nothing that directives look for. -/
def DeclaresNothing (tree : ConfigTree) : Prop :=
  ∀ id ∈ tree.children root, tree.name id ∉ ["set", "upstream", "resolver"]

theorem DeclaresNothing.declaredIn_eq_nil {tree : ConfigTree}
    (nothing : tree.DeclaresNothing) {kind : String}
    (listed : kind ∈ ["set", "upstream", "resolver"]) :
    tree.declaredIn kind root = [] := by
  apply List.filter_eq_nil_iff.2
  intro id held same
  exact nothing id held (eq_of_beq same ▸ listed)

theorem pos_of_parent? {tree : ConfigTree} {id block : Nat}
    (held : tree.parent? id = some block) : 0 < id := by
  cases id with
  | zero => simp at held
  | succ index => exact Nat.succ_pos index

/-- Only the top level of a tree can be shared with another one. -/
theorem sameSurroundings_of_declaresNothing {place : Nat → Nat}
    {tree other : ConfigTree} {id : Nat} (inside : id ≤ tree.size)
    (embeds : Embeds place tree other) (rooted : place root = root)
    (arguments : ∀ id ≤ tree.size,
      other.arguments (place id) = tree.arguments id)
    (members : ∀ block ≤ tree.size, 0 < block →
      SameMembers place tree other block)
    (nothing : tree.DeclaresNothing) (nothingOther : other.DeclaresNothing) :
    SameSurroundings place tree other id := by
  constructor
  case inside => exact inside
  case arguments_eq => exact arguments id inside
  case seesSame =>
    intro kind listed
    constructor
    case declaredIn_eq =>
      intro block around
      rcases Nat.eq_zero_or_pos block with top | nested
      · change block = root at top
        rw [top, rooted, nothing.declaredIn_eq_nil listed,
          nothingOther.declaredIn_eq_nil listed, List.map_nil]
      · have present := Nat.le_trans (le_of_mem_enclosing around) inside
        exact (members block present nested).declaredIn_eq embeds kind
    case arguments_eq =>
      intro declared visible
      exact arguments declared (le_size_of_visible visible)
  case sameMembers =>
    intro group visible
    obtain ⟨block, _, held, _⟩ := mem_visible.1 visible
    exact members group (le_size_of_visible visible) (pos_of_parent? held)

section FollowedBy

variable (first second : ConfigTree) (lines : Nat)

theorem sameMembers_first {block : Nat} (inside : block ≤ first.size)
    (nested : 0 < block) :
    SameMembers (fun id => id) first (first.followedBy second lines) block where
  children_eq := by
    rw [children_followedBy_of_le first second lines nested inside,
      List.map_id']
  arguments_eq member held := by
    exact arguments_followedBy_of_le first second lines
      (le_size_of_parent? (mem_children.1 held))

theorem sameMembers_second {block : Nat} (nested : 0 < block) :
    SameMembers (beyond first.size) second (first.followedBy second lines)
      block where
  children_eq := children_followedBy_beyond first second lines nested
  arguments_eq member _ := arguments_followedBy_beyond first second lines member

variable {first second}

theorem DeclaresNothing.followedBy (nothing : first.DeclaresNothing)
    (nothingSecond : second.DeclaresNothing) :
    (first.followedBy second lines).DeclaresNothing := by
  intro id held
  rw [children_followedBy_root] at held
  rcases List.mem_append.1 held with own | moved
  · have present := le_size_of_parent? (mem_children.1 own)
    rw [(embeds_first first second lines).name_eq id present]
    exact nothing id own
  · obtain ⟨original, top, rfl⟩ := List.mem_map.1 moved
    rw [name_followedBy_beyond]
    exact nothingSecond original top

theorem snapshot_followedBy_of_le {id : Nat} (directive : 0 < id)
    (inside : id ≤ first.size) :
    (first.followedBy second lines).snapshot id = first.snapshot id := by
  have found := find?_followedBy_of_le first second lines inside
  have held := children_followedBy_of_le first second lines directive inside
  simp only [snapshot, line, written, name, arguments, isBlock, found, held]
  rfl

theorem isBlock_followedBy_beyond {id : Nat} (directive : 0 < id) :
    (first.followedBy second lines).isBlock (beyond first.size id) =
      second.isBlock id := by
  have rooted : beyond first.size id == root ↔ id == root := by
    rw [beyond_of_pos first.size directive, beq_iff_eq, beq_iff_eq, root]
    omega
  have opens : ((second.find? id).map (Directive.behind first.size lines)).any
        Directive.opensBlock =
      (second.find? id).any Directive.opensBlock := by
    cases second.find? id <;> rfl
  rw [isBlock, find?_followedBy_beyond, opens,
    children_followedBy_beyond first second lines directive,
    List.isEmpty_map, Bool.eq_iff_iff.2 rooted, isBlock]

theorem snapshot_followedBy_beyond {id : Nat} (directive : 0 < id) :
    (first.followedBy second lines).snapshot (beyond first.size id) =
      (second.snapshot id).behind first.size lines := by
  have node : beyond first.size id = id + first.size := by
    rw [beyond_of_pos first.size directive, Nat.add_comm]
  have text : (first.followedBy second lines).written (beyond first.size id) =
      second.written id := by
    rw [written, name_followedBy_beyond, arguments_followedBy_beyond,
      isBlock_followedBy_beyond lines directive, written]
  rw [snapshot, text, line_followedBy_beyond first second lines directive,
    node]
  rfl

variable (nothing : first.DeclaresNothing)
  (nothingSecond : second.DeclaresNothing)

include nothing nothingSecond

/-- The first configuration keeps its findings. -/
theorem analyze_followedBy_of_le {id : Nat} (directive : 0 < id)
    (inside : id ≤ first.size) :
    (first.followedBy second lines).analyze id = first.analyze id := by
  have embeds := embeds_first first second lines
  have same : SameSurroundings (fun id => id) first
      (first.followedBy second lines) id := by
    refine sameSurroundings_of_declaresNothing inside embeds rfl ?_ ?_ nothing
      (nothing.followedBy lines nothingSecond)
    · intro other present
      exact arguments_followedBy_of_le first second lines present
    · intro block present nested
      exact sameMembers_first first second lines present nested
  have moved : (first.followedBy second lines).analyze id =
      (first.analyze id).map (Finding.moved fun snapshot => snapshot) := by
    refine analyze_eq_moved same embeds
      (snapshot_followedBy_of_le lines directive inside) ?_
    intro group _ server held
    have parent := mem_children.1 held
    exact snapshot_followedBy_of_le lines (pos_of_parent? parent)
      (le_size_of_parent? parent)
  rw [moved]
  exact List.map_id'' Finding.moved_same _

/-- The second configuration keeps its findings with larger numbers and on
later lines. -/
theorem analyze_followedBy_beyond {id : Nat} (directive : 0 < id)
    (inside : id ≤ second.size) :
    (first.followedBy second lines).analyze (beyond first.size id) =
      (second.analyze id).map
        (Finding.moved (Snapshot.behind first.size lines)) := by
  have embeds := embeds_second first second lines
  have same : SameSurroundings (beyond first.size) second
      (first.followedBy second lines) id := by
    refine sameSurroundings_of_declaresNothing inside embeds rfl ?_ ?_
      nothingSecond (nothing.followedBy lines nothingSecond)
    · intro other _
      exact arguments_followedBy_beyond first second lines other
    · intro block _ nested
      exact sameMembers_second first second lines nested
  refine analyze_eq_moved same embeds
    (snapshot_followedBy_beyond lines directive) ?_
  intro group _ server held
  exact snapshot_followedBy_beyond lines
    (pos_of_parent? (mem_children.1 held))

end FollowedBy

end ConfigTree

end ProxyLint
