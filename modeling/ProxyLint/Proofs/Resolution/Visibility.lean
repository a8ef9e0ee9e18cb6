import ProxyLint.Proofs.Configuration.Growth
import ProxyLint.Proofs.Variables.Assignment
import ProxyLint.Resolution.ServerGroup
import Mathlib.Logic.Relation

/-!
# One rule of visibility

A directive can ask for the declarations that it inherits, for all those around
it and for those beside it, and folding looks for assignments on its own.  All
of these answers follow from one list: the declarations whose blocks are around
the directive, nearest block first.  What is inherited is the longest start of
the list that comes from a single block.
-/

namespace ProxyLint

namespace ConfigTree

/-- A block holds a directive, directly or through other blocks. -/
def Encloses (tree : ConfigTree) (block id : Nat) : Prop :=
  Relation.TransGen (fun inner outer => tree.parent? inner = some outer) id
    block

/-- A declaration in a nearer block is seen before those further out, and one
that stands earlier in the document before later ones in the same block. -/
def SeenBefore (tree : ConfigTree) (first second : Nat) : Prop :=
  ∃ nearer block, tree.parent? first = some nearer ∧
    tree.parent? second = some block ∧
      (tree.Encloses block nearer ∨
        nearer = block ∧ [first, second].Sublist tree.walk)

/-- The directives come from a single block. -/
def FromOneBlock (tree : ConfigTree) (ids : List Nat) : Prop :=
  ∃ block, ∀ id ∈ ids, tree.parent? id = some block

/-- The longest start of a list that comes from a single block. -/
structure LeadingRun (tree : ConfigTree) (run ids : List Nat) : Prop where
  leads : run <+: ids
  together : tree.FromOneBlock run
  maximal : ∀ longer, longer <+: ids → tree.FromOneBlock longer →
    longer <+: run

/-- What a directive sees, however it is asked. -/
structure SeesAsDeclared (tree : ConfigTree) (id : Nat) : Prop where
  mem_visible_iff : ∀ kind declared, declared ∈ tree.visible kind id ↔
    tree.name declared = kind ∧
      ∃ block, tree.parent? declared = some block ∧ tree.Encloses block id
  nodup : ∀ kind, (tree.visible kind id).Nodup
  ordered : ∀ kind, (tree.visible kind id).Pairwise tree.SeenBefore
  visibleBeside_eq : ∀ kind, tree.visibleBeside kind id =
    (tree.visible kind id).filter fun declared =>
      tree.parent? declared == tree.parent? id
  inherited_leads : ∀ kind,
    tree.LeadingRun (tree.inherited kind id) (tree.visible kind id)
  inherited_eq_nil_iff : ∀ kind,
    tree.inherited kind id = [] ↔ tree.visible kind id = []
  /-- A variable is folded with the last assignment of the leading run. -/
  assignment?_eq : ∀ name, ∃ run,
    tree.LeadingRun run ((tree.visible "set" id).filter fun declared =>
      tree.firstArgument? declared == some ("$" ++ name)) ∧
    tree.assignment? name id = run.getLast?
  hasResolver_iff_inherited :
    tree.hasResolver id = true ↔ tree.inherited "resolver" id ≠ []
  hasResolver_iff_visible :
    tree.hasResolver id = true ↔ tree.visible "resolver" id ≠ []

theorem firstNonempty_eq_nil_iff {α : Type} {lists : List (List α)} :
    firstNonempty lists = [] ↔ lists.flatten = [] := by
  fun_induction firstNonempty lists with
  | case1 => simp
  | case2 lists ih => simpa using ih
  | case3 head tail lists => simp

/-- Lists of directives by block: the first of them that has a member leads all
of them. -/
theorem leadingRun_firstNonempty {tree : ConfigTree} {blocks : List Nat}
    (distinct : blocks.Nodup) {held : Nat → List Nat}
    (inside : ∀ block, ∀ id ∈ held block, tree.parent? id = some block) :
    tree.LeadingRun (firstNonempty (blocks.map held)) (blocks.flatMap held) := by
  induction blocks with
  | nil => exact ⟨List.nil_prefix, ⟨0, by simp [firstNonempty]⟩, by simp⟩
  | cons block blocks ih =>
      obtain ⟨apart, distinct⟩ := List.nodup_cons.1 distinct
      rw [List.map_cons, List.flatMap_cons]
      cases members : held block with
      | nil => exact ih distinct
      | cons first others =>
          rw [firstNonempty, ← members]
          refine ⟨List.prefix_append _ _, ⟨block, inside block⟩, ?_⟩
          rintro longer leads ⟨single, together⟩
          rcases List.prefix_or_prefix_of_prefix leads
            (List.prefix_append _ _) with shorter | ⟨extra, rfl⟩
          · exact shorter
          · -- What goes beyond the block is held by another one.
            have own : first ∈ held block := members ▸ List.mem_cons_self
            have same := together first (List.mem_append_left extra own)
            rw [inside block first own] at same
            obtain rfl := Option.some.inj same
            cases extra with
            | nil => simp
            | cons next later =>
                have beyond := (List.prefix_append_right_inj _).1 leads
                have member := beyond.subset List.mem_cons_self
                obtain ⟨other, otherBlock, otherHeld⟩ :=
                  List.mem_flatMap.1 member
                have nextHeld := together next (by simp)
                rw [inside other next otherHeld] at nextHeld
                obtain rfl := Option.some.inj nextHeld
                exact absurd otherBlock apart

section Nested

variable {tree : ConfigTree} (nested : ∀ id, tree.parent? id ≠ some id)

include nested

theorem encloses_iff {block id : Nat} :
    tree.Encloses block id ↔ block ∈ tree.enclosing id := by
  constructor
  · intro encloses
    induction encloses using Relation.TransGen.head_induction_on with
    | single held => exact mem_enclosing.2 ⟨_, held, .inl rfl⟩
    | head held _ ih =>
        exact mem_enclosing.2
          ⟨_, held, .inr ⟨(lt_of_child (nested _) held).1, ih⟩⟩
  · intro around
    induction id using Nat.strong_induction_on with
    | _ id ih =>
      obtain ⟨parent, held, rfl | ⟨older, outside⟩⟩ := mem_enclosing.1 around
      · exact .single held
      · exact .head held (ih parent older outside)

/-- The blocks around a directive enclose each other. -/
theorem enclosing_pairwise (id : Nat) :
    (tree.enclosing id).Pairwise fun inner outer =>
      tree.Encloses outer inner := by
  have chain : (id :: tree.enclosing id).IsChain fun inner outer =>
      tree.Encloses outer inner :=
    (isChain_enclosing nested id).imp fun _ _ step => .single step.1
  have trans : Trans (fun inner outer => tree.Encloses outer inner)
      (fun inner outer => tree.Encloses outer inner)
      (fun inner outer => tree.Encloses outer inner) :=
    ⟨Relation.TransGen.trans⟩
  exact (List.isChain_iff_pairwise.1 chain).of_cons

theorem not_encloses_self (id : Nat) : ¬ tree.Encloses id id := by
  intro encloses
  obtain ⟨parent, held, place⟩ :=
    mem_enclosing.1 ((encloses_iff nested).1 encloses)
  have older := (lt_of_child (nested parent) held).1
  rcases place with rfl | ⟨_, outside⟩
  · exact lt_irrefl id older
  · exact absurd (le_of_mem_enclosing outside) (Nat.not_le_of_lt older)

theorem nodup_enclosing (id : Nat) : (tree.enclosing id).Nodup := by
  refine (enclosing_pairwise nested id).imp ?_
  rintro block _ encloses rfl
  exact not_encloses_self nested block encloses

theorem visible_ordered (kind : String) (id : Nat) :
    (tree.visible kind id).Pairwise tree.SeenBefore := by
  rw [visible, List.pairwise_flatMap]
  constructor
  · intro block _
    refine (tree.declaredIn_increasing kind block).imp_of_mem ?_
    intro first second firstMember secondMember before
    have held := (mem_declaredIn.1 firstMember).1
    have heldSecond := (mem_declaredIn.1 secondMember).1
    have bound : block ≤ tree.size :=
      (le_of_parent? held).trans (le_size_of_parent? held)
    exact ⟨block, block, held, heldSecond, .inr ⟨rfl,
      (sublist_of_siblings nested held heldSecond before
        List.mem_cons_self).trans (descendants_sublist_walk nested bound)⟩⟩
  · refine (enclosing_pairwise nested id).imp ?_
    intro nearer outer encloses first firstMember second secondMember
    exact ⟨nearer, outer, (mem_declaredIn.1 firstMember).1,
      (mem_declaredIn.1 secondMember).1, .inl encloses⟩

theorem nodup_visible (kind : String) (id : Nat) :
    (tree.visible kind id).Nodup := by
  rw [visible, List.nodup_flatMap]
  refine ⟨fun block _ => (tree.declaredIn_increasing kind block).nodup, ?_⟩
  refine (nodup_enclosing nested id).imp ?_
  intro first second apart declared member other
  have same := (mem_declaredIn.1 member).1.symm.trans (mem_declaredIn.1 other).1
  exact apart (Option.some.inj same)

/-- The blocks further out hold no siblings. -/
theorem visibleBeside_eq_filter (kind : String) (id : Nat) :
    tree.visibleBeside kind id =
      (tree.visible kind id).filter fun declared =>
        tree.parent? declared == tree.parent? id := by
  cases held : tree.parent? id with
  | none =>
      rw [visibleBeside, visible, enclosing, held]
      rfl
  | some parent =>
      have around := enclosing_of_lt held (lt_of_child (nested parent) held).1
      have apart : parent ∉ tree.enclosing parent := by
        have distinct := nodup_enclosing nested id
        rw [around] at distinct
        exact (List.nodup_cons.1 distinct).1
      rw [visibleBeside, held, visible, around, List.flatMap_cons,
        List.filter_append, List.filter_eq_self.2, List.filter_eq_nil_iff.2,
        List.append_nil]
      · rfl
      · intro declared member
        obtain ⟨block, outside, inside⟩ := List.mem_flatMap.1 member
        rw [(mem_declaredIn.1 inside).1, beq_iff_eq, Option.some.injEq]
        rintro rfl
        exact apart outside
      · intro declared member
        simp [(mem_declaredIn.1 member).1]

theorem leadingRun_inherited (kind : String) (id : Nat) :
    tree.LeadingRun (tree.inherited kind id) (tree.visible kind id) :=
  leadingRun_firstNonempty (nodup_enclosing nested id)
    fun _ _ member => (mem_declaredIn.1 member).1

end Nested

theorem firstNonempty_of_split {α : Type} {nearer outer : List (List α)}
    {found : List α} (empty : ∀ list ∈ nearer, list = []) (present : found ≠ []) :
    firstNonempty (nearer ++ found :: outer) = found := by
  induction nearer with
  | nil =>
      obtain ⟨head, tail, rfl⟩ := List.exists_cons_of_ne_nil present
      rfl
  | cons list nearer ih =>
      obtain ⟨rfl, later⟩ := List.forall_mem_cons.1 empty
      exact ih later

/-- The search through all blocks ends in the first block with an assignment. -/
theorem assignment?_eq_getLast? (tree : ConfigTree) (name : String)
    (id : Nat) :
    tree.assignment? name id =
      (firstNonempty ((tree.enclosing id).map
        (tree.assignmentsIn name))).getLast? := by
  rcases nearest_assigning_block tree name (tree.enclosing id) with
    none | ⟨nearer, block, outer, around, unassigned, assigned⟩
  · have nothing : firstNonempty ((tree.enclosing id).map
        (tree.assignmentsIn name)) = [] := by
      rw [firstNonempty_eq_nil_iff, List.flatten_eq_nil_iff,
        List.forall_mem_map]
      exact none
    rw [assignment?_eq_none none, nothing, List.getLast?_nil]
  · rw [assignment?_of_nearest around unassigned assigned, around,
      List.map_append, List.map_cons, firstNonempty_of_split
        (List.forall_mem_map.2 unassigned) assigned]

theorem inherited_eq_nil_iff {tree : ConfigTree} {kind : String} {id : Nat} :
    tree.inherited kind id = [] ↔ tree.visible kind id = [] := by
  rw [inherited, firstNonempty_eq_nil_iff, visible, List.flatMap_def]

theorem hasResolver_iff_visible {tree : ConfigTree} {id : Nat} :
    tree.hasResolver id = true ↔ tree.visible "resolver" id ≠ [] := by
  simp [hasResolver]

/-- In a tree without directives that hold themselves all ways of asking agree
on what a directive sees. -/
theorem seesAsDeclared_of_nested {tree : ConfigTree}
    (nested : ∀ id, tree.parent? id ≠ some id) (id : Nat) :
    tree.SeesAsDeclared id where
  mem_visible_iff kind declared := by
    simp only [mem_visible, encloses_iff nested]
    constructor
    · rintro ⟨block, around, held, named⟩
      exact ⟨named, block, held, around⟩
    · rintro ⟨named, block, held, around⟩
      exact ⟨block, around, held, named⟩
  nodup kind := nodup_visible nested kind id
  ordered kind := visible_ordered nested kind id
  visibleBeside_eq kind := visibleBeside_eq_filter nested kind id
  inherited_leads kind := leadingRun_inherited nested kind id
  inherited_eq_nil_iff _ := inherited_eq_nil_iff
  assignment?_eq name := by
    refine ⟨_, ?_, tree.assignment?_eq_getLast? name id⟩
    change tree.LeadingRun _ (tree.assignments name id)
    rw [assignments_eq]
    exact leadingRun_firstNonempty (nodup_enclosing nested id)
      fun _ _ member => (mem_assignmentsIn.1 member).1
  hasResolver_iff_inherited := by
    rw [hasResolver_iff_visible, Ne, Ne, inherited_eq_nil_iff]
  hasResolver_iff_visible := hasResolver_iff_visible

/-- Whatever changes have made a tree, each of its directives sees what is
declared around it, and all ways of asking agree. -/
theorem seesAsDeclared_of_edits {edits : List Edit} {tree : ConfigTree}
    (known : Edit.Known 0 edits) (built : ofEdits? edits = some tree)
    (id : Nat) : tree.SeesAsDeclared id := by
  obtain ⟨final, reached, recorded⟩ := Recorded.start.run known
  obtain rfl := Option.some.inj (built.symm.trans reached)
  exact seesAsDeclared_of_nested
    (fun id own => lt_irrefl id (recorded.older id id own)) id

/-- Resolvers and assignments on three levels. -/
def layeredEdits : List Edit :=
  [.add 0 "resolver" ["1.1.1.1"] false, .add 0 "server" [] true,
    .add 2 "set" ["$host", "a.example.com"] false,
    .add 2 "resolver" ["8.8.8.8"] false, .add 2 "resolver" ["9.9.9.9"] false,
    .add 2 "set" ["$host", "b.example.com"] false,
    .add 2 "location" ["/"] true, .add 7 "proxy_pass" ["http://$host"] false]

def layeredSite : ConfigTree where
  directives := #[
    ⟨0, "resolver", ["1.1.1.1"], false, none⟩,
    ⟨0, "server", [], true, none⟩,
    ⟨2, "set", ["$host", "a.example.com"], false, none⟩,
    ⟨2, "resolver", ["8.8.8.8"], false, none⟩,
    ⟨2, "resolver", ["9.9.9.9"], false, none⟩,
    ⟨2, "set", ["$host", "b.example.com"], false, none⟩,
    ⟨2, "location", ["/"], true, none⟩,
    ⟨7, "proxy_pass", ["http://$host"], false, none⟩]
  rootLine := none
  parent_le := by decide

/-- The resolvers of the inner level hide the outer one from inheritance, and
the last of two assignments counts. -/
theorem layeredSite_sees :
    Edit.Known 0 layeredEdits ∧ ofEdits? layeredEdits = some layeredSite ∧
      layeredSite.SeesAsDeclared 8 ∧
      layeredSite.visible "resolver" 8 = [4, 5, 1] ∧
      layeredSite.inherited "resolver" 8 = [4, 5] ∧
      layeredSite.assignment? "host" 8 = some 6 :=
  have known : Edit.Known 0 layeredEdits := by decide
  have built : ofEdits? layeredEdits = some layeredSite := rfl
  ⟨known, built, seesAsDeclared_of_edits known built 8, by decide +kernel,
    by decide +kernel, by decide +kernel⟩

end ConfigTree

end ProxyLint
