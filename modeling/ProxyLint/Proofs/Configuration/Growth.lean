import ProxyLint.Proofs.Configuration.Preorder
import Mathlib.Logic.Function.Basic

/-!
# How a tree grows

A tree is built by adding directives to blocks that are already in it and by
recording lines, in any order.  A ledger keeps the links in both directions by
hand: an addition puts the new directive last among the children of its block
and makes a block of what holds it.  The tree, which has the links in one
direction only, agrees with the ledger after every change.
-/

namespace ProxyLint

namespace ConfigTree

section SetLine

variable (tree : ConfigTree) (id line : Nat)

theorem find?_setLine (other : Nat) :
    (tree.setLine id line).find? other =
      (tree.find? other).map fun directive =>
        if other = id then { directive with line := some line }
        else directive := by
  cases other with
  | zero => rfl
  | succ index =>
      cases id with
      | zero => simp [setLine, find?]
      | succ position =>
          by_cases same : position = index
          · simp [setLine, find?, Array.getElem?_modify, same]
          · simp [setLine, find?, Array.getElem?_modify, same, Ne.symm same]

@[simp]
theorem size_setLine : (tree.setLine id line).size = tree.size := by
  cases id <;> simp [setLine, size]

@[simp]
theorem parent?_setLine (other : Nat) :
    (tree.setLine id line).parent? other = tree.parent? other := by
  rw [parent?, find?_setLine, Option.map_map, parent?]
  congr 1
  funext directive
  by_cases same : other = id <;> simp [same]

@[simp]
theorem children_setLine (block : Nat) :
    (tree.setLine id line).children block = tree.children block := by
  simp [children]

/-- A line says nothing about blocks. -/
theorem isBlock_setLine (other : Nat) :
    (tree.setLine id line).isBlock other = tree.isBlock other := by
  rw [isBlock, find?_setLine, children_setLine, isBlock, Option.any_map]
  congr 3
  funext directive
  by_cases same : other = id <;> simp [same]

theorem map_opensBlock_setLine :
    (tree.setLine id line).directives.toList.map Directive.opensBlock =
      tree.directives.toList.map Directive.opensBlock := by
  cases id with
  | zero => rfl
  | succ index =>
      refine List.ext_getElem? fun position => ?_
      by_cases same : index = position <;>
        simp [setLine, same, Function.comp_def]

end SetLine

section Push

variable {tree : ConfigTree} {directive : Directive}
  (known : directive.parent ≤ tree.size + 1)

theorem find?_push (id : Nat) :
    (tree.push directive known).find? id =
      if id = tree.size + 1 then some directive else tree.find? id := by
  cases id with
  | zero => simp
  | succ index => simp [find?, push, Array.getElem?_push, size]

theorem parent?_push (id : Nat) :
    (tree.push directive known).parent? id =
      if id = tree.size + 1 then some directive.parent
      else tree.parent? id := by
  rw [parent?, find?_push]
  split <;> rfl

/-- A new directive makes a block of what holds it. -/
theorem isBlock_push (id : Nat) :
    (tree.push directive known).isBlock id =
      if directive.parent = id then true
      else if id = tree.size + 1 then directive.opensBlock
      else tree.isBlock id := by
  rw [isBlock, find?_push, children_push]
  by_cases holds : directive.parent = id
  · simp [holds]
  · by_cases newest : id = tree.size + 1
    · have childless : tree.children (tree.size + 1) = [] := by
        refine List.eq_nil_iff_forall_not_mem.2 fun child member => ?_
        have held := mem_children.1 member
        have older := le_of_parent? held
        have bound := le_size_of_parent? held
        omega
      rw [newest] at holds
      simp [newest, holds, childless, root]
    · simp [holds, newest, isBlock]

end Push

/-- One change of a tree. -/
inductive Edit where
  | add (block : Nat) (name : String) (arguments : List String)
      (opensBlock : Bool)
  | recordLine (id line : Nat)
deriving DecidableEq, Repr

namespace Edit

/-- A new directive has no line at first. -/
def perform? (tree : ConfigTree) : Edit → Option ConfigTree
  | add block name arguments opensBlock =>
      tree.push? ⟨block, name, arguments, opensBlock, none⟩
  | recordLine id line => some (tree.setLine id line)

def opensBlock? : Edit → Option Bool
  | add _ _ _ opensBlock => some opensBlock
  | recordLine _ _ => none

/-- Every addition names the root block or a directive that was added before,
where a number of directives is there at first. -/
def Known (count : Nat) : List Edit → Prop
  | [] => True
  | add block _ _ _ :: edits => block ≤ count ∧ Known (count + 1) edits
  | recordLine _ _ :: edits => Known count edits

instance decidableKnown :
    (count : Nat) → (edits : List Edit) → Decidable (Known count edits)
  | _, [] => .isTrue trivial
  | count, add block _ _ _ :: edits =>
      have := decidableKnown (count + 1) edits
      inferInstanceAs (Decidable (block ≤ count ∧ Known (count + 1) edits))
  | count, recordLine _ _ :: edits => decidableKnown count edits

end Edit

/-- The tree after a sequence of changes, starting without directives. -/
def ofEdits? (edits : List Edit) : Option ConfigTree :=
  edits.foldlM Edit.perform? empty

/-- The links of a tree in both directions, with a mark for every block. -/
structure Ledger where
  size : Nat
  parent? : Nat → Option Nat
  children : Nat → List Nat
  isBlock : Nat → Bool

namespace Ledger

def empty : Ledger where
  size := 0
  parent? _ := none
  children _ := []
  isBlock id := id == root

/-- The new directive is put behind the other children of its block, which is
then marked. -/
def record (ledger : Ledger) : Edit → Ledger
  | .add block _ _ opensBlock =>
      let id := ledger.size + 1
      { size := id
        parent? := Function.update ledger.parent? id (some block)
        children :=
          Function.update ledger.children block (ledger.children block ++ [id])
        isBlock :=
          Function.update (Function.update ledger.isBlock id opensBlock)
            block true }
  | .recordLine _ _ => ledger

def ofEdits (edits : List Edit) : Ledger :=
  edits.foldl record empty

theorem ofEdits_concat (edits : List Edit) (edit : Edit) :
    ofEdits (edits ++ [edit]) = (ofEdits edits).record edit := by
  simp [ofEdits]

structure Agrees (ledger : Ledger) (tree : ConfigTree) : Prop where
  size_eq : tree.size = ledger.size
  parent?_eq : ∀ id, tree.parent? id = ledger.parent? id
  children_eq : ∀ id, tree.children id = ledger.children id
  isBlock_eq : ∀ id, tree.isBlock id = ledger.isBlock id

theorem agrees_empty : empty.Agrees ConfigTree.empty where
  size_eq := rfl
  parent?_eq id := by cases id <;> rfl
  children_eq id := by cases id <;> rfl
  isBlock_eq id := by cases id <;> rfl

variable {ledger : Ledger} {tree : ConfigTree}

theorem Agrees.setLine (agrees : ledger.Agrees tree) (id line : Nat) :
    ledger.Agrees (tree.setLine id line) where
  size_eq := by rw [size_setLine, agrees.size_eq]
  parent?_eq other := by rw [parent?_setLine, agrees.parent?_eq]
  children_eq other := by rw [children_setLine, agrees.children_eq]
  isBlock_eq other := by rw [isBlock_setLine, agrees.isBlock_eq]

theorem Agrees.push (agrees : ledger.Agrees tree) {directive : Directive}
    (known : directive.parent ≤ tree.size + 1) :
    (ledger.record (.add directive.parent directive.name directive.arguments
      directive.opensBlock)).Agrees (tree.push directive known) where
  size_eq := by simp only [size_push, record, agrees.size_eq]
  parent?_eq id := by
    simp only [parent?_push, record, ← agrees.size_eq, Function.update_apply,
      agrees.parent?_eq]
  children_eq block := by
    simp only [children_push, record, ← agrees.size_eq, Function.update_apply,
      agrees.children_eq]
    by_cases holds : block = directive.parent
    · rw [if_pos holds, if_pos holds.symm, holds]
    · rw [if_neg holds, if_neg (Ne.symm holds), List.append_nil]
  isBlock_eq id := by
    simp only [isBlock_push, record, ← agrees.size_eq, Function.update_apply,
      agrees.isBlock_eq, @eq_comm _ directive.parent id]

end Ledger

/-- What holds of a tree after every change in a sequence. -/
structure Recorded (edits : List Edit) (tree : ConfigTree) : Prop where
  agrees : (Ledger.ofEdits edits).Agrees tree
  older : ∀ id parent, tree.parent? id = some parent → parent < id
  opensBlock_eq :
    tree.directives.toList.map Directive.opensBlock =
      edits.filterMap Edit.opensBlock?

namespace Recorded

theorem start : Recorded [] empty where
  agrees := Ledger.agrees_empty
  older id parent held := by cases id <;> simp [parent?, find?, empty] at held
  opensBlock_eq := rfl

variable {edits : List Edit} {tree : ConfigTree}

theorem add (recorded : Recorded edits tree) (directive : Directive)
    (older : directive.parent ≤ tree.size) :
    Recorded (edits ++ [.add directive.parent directive.name
      directive.arguments directive.opensBlock])
        (tree.push directive (Nat.le_succ_of_le older)) where
  agrees := by
    rw [Ledger.ofEdits_concat]
    exact recorded.agrees.push _
  older id parent held := by
    rw [parent?_push] at held
    split at held
    next newest =>
      obtain rfl := Option.some.inj held
      exact newest ▸ Nat.lt_succ_of_le older
    next => exact recorded.older id parent held
  opensBlock_eq := by simp [push, recorded.opensBlock_eq, Edit.opensBlock?]

theorem recordLine (recorded : Recorded edits tree) (id line : Nat) :
    Recorded (edits ++ [.recordLine id line]) (tree.setLine id line) where
  agrees := by
    rw [Ledger.ofEdits_concat]
    exact recorded.agrees.setLine id line
  older other parent held := by
    rw [parent?_setLine] at held
    exact recorded.older other parent held
  opensBlock_eq := by
    rw [map_opensBlock_setLine, recorded.opensBlock_eq]
    simp [Edit.opensBlock?]

/-- A change that names an old block can be made, and afterwards the tree is
still in step with the ledger. -/
theorem step (recorded : Recorded edits tree) {edit : Edit} {later : List Edit}
    (known : Edit.Known tree.size (edit :: later)) :
    ∃ next, edit.perform? tree = some next ∧ Recorded (edits ++ [edit]) next ∧
      Edit.Known next.size later := by
  cases edit with
  | add block name arguments opensBlock =>
      obtain ⟨older, knownLater⟩ := known
      refine ⟨_, push?_eq_some (Nat.le_succ_of_le older),
        recorded.add ⟨block, name, arguments, opensBlock, none⟩ older, ?_⟩
      rw [size_push]
      exact knownLater
  | recordLine id line =>
      refine ⟨_, rfl, recorded.recordLine id line, ?_⟩
      rw [size_setLine]
      exact known

theorem run (recorded : Recorded edits tree) {later : List Edit}
    (known : Edit.Known tree.size later) :
    ∃ final, later.foldlM Edit.perform? tree = some final ∧
      Recorded (edits ++ later) final := by
  induction later generalizing edits tree with
  | nil => exact ⟨tree, rfl, by simpa using recorded⟩
  | cons edit later ih =>
      obtain ⟨next, applied, recordedNext, knownNext⟩ := recorded.step known
      obtain ⟨final, reached, recordedFinal⟩ := ih recordedNext knownNext
      refine ⟨final, ?_, by simpa using recordedFinal⟩
      rw [List.foldlM_cons, applied]
      exact reached

/-- The mark of a directive is the one it was added with. -/
theorem any_opensBlock (recorded : Recorded edits tree) (index : Nat) :
    (tree.find? (index + 1)).any Directive.opensBlock ↔
      (edits.filterMap Edit.opensBlock?)[index]? = some true := by
  rw [← recorded.opensBlock_eq, List.getElem?_map, Array.getElem?_toList, find?]
  cases tree.directives[index]? <;> simp

theorem isBlock_iff (recorded : Recorded edits tree) (id : Nat) :
    tree.isBlock id ↔
      id = root ∨
      (∃ index, id = index + 1 ∧
        (edits.filterMap Edit.opensBlock?)[index]? = some true) ∨
      tree.children id ≠ [] := by
  cases id with
  | zero => simp [isBlock, root]
  | succ index =>
      rw [isBlock, Bool.or_eq_true, Bool.or_eq_true, recorded.any_opensBlock,
        or_assoc]
      simp

end Recorded

/-- The links of a tree agree with each other and with the changes that made
it, and the traversals follow them. -/
structure WellLinked (edits : List Edit) (tree : ConfigTree) : Prop where
  agrees : (Ledger.ofEdits edits).Agrees tree
  held : ∀ id, 0 < id → id ≤ tree.size →
    ∃ parent, tree.parent? id = some parent ∧ parent < id
  count_children : ∀ block id, (tree.children block).count id =
    if tree.parent? id = some block then 1 else 0
  increasing : ∀ block, (tree.children block).Pairwise (· < ·)
  isBlock_iff : ∀ id, tree.isBlock id ↔
    id = root ∨
    (∃ index, id = index + 1 ∧
      (edits.filterMap Edit.opensBlock?)[index]? = some true) ∨
    tree.children id ≠ []
  isChain_enclosing : ∀ id, (id :: tree.enclosing id).IsChain
    fun inner outer => tree.parent? inner = some outer ∧ outer < inner
  getLast?_enclosing : ∀ id ≤ tree.size,
    (id :: tree.enclosing id).getLast? = some root
  /-- The stack is empty after one step for each directive. -/
  visited_eq : (Traversal.advance tree)^[tree.size] (.start tree root) =
    ⟨[], tree.walk⟩
  preorder_iff : ∀ block order,
    tree.Preorder (tree.children block) order ↔ order = tree.descendants block
  mem_descendants_iff : ∀ block id,
    id ∈ tree.descendants block ↔ block ∈ tree.enclosing id
  walk_perm : tree.walk.Perm (List.range' 1 tree.size)
  root_not_mem : root ∉ tree.walk
  parent_first : ∀ id parent, tree.parent? id = some parent → parent ≠ root →
    [parent, id].Sublist tree.walk
  siblings_first : ∀ block older younger inner,
    tree.parent? older = some block → tree.parent? younger = some block →
    older < younger → inner ∈ older :: tree.descendants older →
    [inner, younger].Sublist tree.walk
  /-- The first of a kind is searched recursively. -/
  searched : ∀ kind block, tree.firstDescendant? kind block =
    (tree.children block).findSome? fun child =>
      if tree.name child = kind then some child
      else tree.firstDescendant? kind child
  found_iff : ∀ kind block found, tree.firstDescendant? kind block = some found ↔
    tree.name found = kind ∧
    ∃ before after, tree.descendants block = before ++ found :: after ∧
      ∀ other ∈ before, tree.name other ≠ kind

theorem Recorded.wellLinked {edits : List Edit} {tree : ConfigTree}
    (recorded : Recorded edits tree) : WellLinked edits tree := by
  have nested (id : Nat) : tree.parent? id ≠ some id := fun own =>
    lt_irrefl id (recorded.older id id own)
  have perm := walk_perm_range' nested
  exact {
    agrees := recorded.agrees
    held := fun id positive bound => by
      obtain ⟨parent, held, _⟩ :=
        mem_enclosing.1 (root_mem_enclosing nested positive bound)
      exact ⟨parent, held, recorded.older id parent held⟩
    count_children := tree.count_children
    increasing := tree.children_increasing
    isBlock_iff := recorded.isBlock_iff
    isChain_enclosing := isChain_enclosing nested
    getLast?_enclosing := fun _ bound => getLast?_enclosing nested bound
    visited_eq := by
      rw [← length_walk nested]
      exact iterate_advance_start nested root
    preorder_iff := fun block order => by
      have preorder := preorder_descendants nested block
      exact ⟨fun other => other.unique preorder, fun same => same ▸ preorder⟩
    mem_descendants_iff := fun block => mem_descendants_iff (nested block)
    walk_perm := perm
    root_not_mem := fun member => by
      have := List.mem_range'_1.1 (perm.mem_iff.1 member)
      simp [root] at this
    parent_first := fun id parent held inner => by
      have bound := (recorded.older id parent held).le.trans
        (le_size_of_parent? held)
      exact sublist_of_parent? nested
        (mem_walk nested (Nat.pos_of_ne_zero inner) bound) held
    siblings_first := fun block older younger inner held youngerHeld lower
        inside => by
      have bound := (recorded.older older block held).le.trans
        (le_size_of_parent? held)
      exact (sublist_of_siblings nested held youngerHeld lower inside).trans
        (descendants_sublist_walk nested bound)
    searched := firstDescendant?_eq_findSome? nested
    found_iff := fun kind block found => by
      simp [firstDescendant?, List.find?_eq_some_iff_append] }

/-- However additions to older blocks and recorded lines follow each other, they
give a tree with sound links. -/
theorem wellLinked_of_edits {edits : List Edit} (known : Edit.Known 0 edits) :
    ∃ tree, ofEdits? edits = some tree ∧ WellLinked edits tree := by
  obtain ⟨tree, built, recorded⟩ := Recorded.start.run known
  exact ⟨tree, built, recorded.wellLinked⟩

/-- Two blocks that are filled in turns.  One is made a block only by its first
child, and one line is recorded for a directive that is not there. -/
def interleavedEdits : List Edit :=
  [.add 0 "http" [] true, .add 0 "events" [] true, .add 1 "server" [] false,
    .recordLine 3 7, .add 2 "use" ["epoll"] false,
    .add 3 "location" ["/"] true, .recordLine 99 1,
    .add 1 "resolver" ["1.1.1.1"] false]

theorem interleavedEdits_wellLinked :
    Edit.Known 0 interleavedEdits ∧
      ∃ tree, ofEdits? interleavedEdits = some tree ∧
        WellLinked interleavedEdits tree :=
  have known : Edit.Known 0 interleavedEdits := by decide
  ⟨known, wellLinked_of_edits known⟩

end ConfigTree

end ProxyLint
